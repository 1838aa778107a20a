import Tename.Sessions.Transactions

/-!
# Creating sessions, statement by statement

`create_session` as the statements its body issues, for any number of callers. A
call with a request id looks the id up, inserts a row if it finds none, and looks
again in a second transaction if the insert fails. Of Postgres the model takes the
partial unique index on the request id: an insert waits for an uncommitted row
with its key and fails on a committed one.

`->>` and `repr` print values of every kind; the code looks at what they print for
strings only, so what they print for the others is a parameter.
-/

namespace Tename

/-- What is printed of a JSON value. -/
structure Printer where
  /-- Python's `repr`. -/
  repr : Json → String
  /-- `->>` on a value that is neither a string nor null. -/
  text : Json → String

/-- `metadata.get("request_id")`, if it is a string. -/
def Payload.requestId (metadata : Payload) : Option String :=
  (metadata.get? "request_id").bind Json.str?

/-- `metadata->>'request_id'`. -/
def Payload.requestText (printer : Printer) (metadata : Payload) : Option String :=
  match metadata.get? "request_id" with
  | none => none
  | some .null => none
  | some (.str id) => some id
  | some value => some (printer.text value)

/-- The arguments of one `create_session` call. -/
structure CreateCall where
  agentId : AgentId
  metadata : Option Payload
  requestId : Option String

/-- `_merge_metadata`. -/
def CreateCall.mergeMetadata (printer : Printer) (call : CreateCall) : Except Exn Payload :=
  let merged := call.metadata.getD []
  let given := merged.getD "request_id" .null
  match call.requestId with
  | none => .ok merged
  | some id =>
      if !given.isNull && given.str? != some id then
        let ours := printer.repr (.str id)
        let theirs := printer.repr given
        .error (.validationError
          s!"request_id argument conflicts with metadata['request_id']: {ours} != {theirs}")
      else .ok (merged.set "request_id" (.str id))

/-- Where a `create_session` call stands: the statement it takes next, or how it ended. -/
inductive CreatePhase where
  | findSessionByRequestId
  | existing (row : Session)
  | insertSession
  | commit (row : Session)
  | rollback
  | retry
  | retried (row : Option Session)
  /-- `session.create.ok`: the call has inserted the session it returns. -/
  | created (row : Session)
  | returned (row : Session)
  | raised (error : Exn)
  | aborted

namespace CreatePhase

def ended : CreatePhase → Bool
  | .created _ | .returned _ | .raised _ | .aborted => true
  | _ => false

/-- The session a call has returned. -/
def result : CreatePhase → Option Session
  | .created row | .returned row => some row
  | _ => none

/-- The number of statements a call has left at most. -/
def rank : CreatePhase → Nat
  | .findSessionByRequestId => 5
  | .insertSession => 4
  | .rollback => 3
  | .retry => 2
  | .existing _ | .commit _ | .retried _ => 1
  | .created _ | .returned _ | .raised _ | .aborted => 0

end CreatePhase

/-- A call with its merged metadata. -/
structure Creation where
  call : CreateCall
  metadata : Payload
  phase : CreatePhase

def Creation.at (cr : Creation) (phase : CreatePhase) : Creation :=
  { cr with phase := phase }

/-- The row the call inserts, under the id the database draws. -/
def Creation.row (cr : Creation) (drawn : SessionId) : Session :=
  ⟨drawn, cr.call.agentId, .active, 0, cr.metadata⟩

/-- The `sessions` table with the calls in progress. -/
structure Registry where
  rows : List Session
  /-- Inserted, uncommitted rows. -/
  uncommitted : List (TxId × Session)
  txs : TxId → Option Creation

inductive RegistryAction where
  | createSession (t : TxId) (call : CreateCall)
  /-- The next statement of a call; an insert takes the id `gen_random_uuid()` draws. -/
  | statement (t : TxId) (drawn : SessionId)
  | abort (t : TxId)

namespace Registry

def empty : Registry := ⟨[], [], fun _ => none⟩

/-- Transaction `t` moves on within its own local state. -/
def goto (s : Registry) (t : TxId) (cr : Creation) : Registry :=
  { s with txs := Function.update s.txs t (some cr) }

/-- Commit or rollback of `t`: its uncommitted rows are gone. -/
def finish (s : Registry) (t : TxId) (cr : Creation) : Registry :=
  { s with
    uncommitted := s.uncommitted.filter (·.1 ≠ t)
    txs := Function.update s.txs t (some cr) }

def insert (s : Registry) (t : TxId) (row : Session) : Registry :=
  { s with uncommitted := s.uncommitted ++ [(t, row)] }

def withRow (s : Registry) (row : Session) : Registry :=
  { s with rows := s.rows ++ [row] }

/-- The committed and the uncommitted rows. -/
def allRows (s : Registry) : List Session :=
  s.rows ++ s.uncommitted.map Prod.snd

variable (printer : Printer) (agents : AgentId → Bool)

/-- `find_session_by_request_id`. -/
def findSessionByRequestId (s : Registry) (requestId : String) : Option Session :=
  s.rows.find? (·.metadata.requestText printer = some requestId)

/-- The partial unique index admits no two rows with the same request id. -/
def conflicts (metadata : Payload) (row : Session) : Bool :=
  (metadata.requestText printer).isSome ∧
    row.metadata.requestText printer = metadata.requestText printer

/-- The next statement of a `create_session` call. -/
def createStatement (s : Registry) (t : TxId) (cr : Creation) (drawn : SessionId) :
    CreatePhase → Option Registry
  | .findSessionByRequestId =>
      match cr.metadata.requestId.bind (s.findSessionByRequestId printer) with
      | some row => some (s.goto t (cr.at (.existing row)))
      | none => some (s.goto t (cr.at .insertSession))
  | .existing row => some (s.finish t (cr.at (.returned row)))
  | .insertSession =>
      -- Waits while another transaction holds an uncommitted row with its key.
      if s.uncommitted.any fun p => p.1 ≠ t ∧ conflicts printer cr.metadata p.2 then none
      else if s.rows.any (conflicts printer cr.metadata) ∨ agents cr.call.agentId = false then
        match cr.metadata.requestId with
        | some _ => some (s.goto t (cr.at .rollback))
        | none => some (s.finish t (cr.at (.raised (.runtimeError
            "session insert failed and idempotent retry found no row"))))
      else if s.allRows.any (·.id = drawn) then none
      else some ((s.insert t (cr.row drawn)).goto t (cr.at (.commit (cr.row drawn))))
  | .commit row => some ((s.withRow row).finish t (cr.at (.created row)))
  | .rollback => some (s.finish t (cr.at .retry))
  | .retry =>
      some (s.goto t (cr.at (.retried (cr.metadata.requestId.bind
        (s.findSessionByRequestId printer)))))
  | .retried (some row) => some (s.finish t (cr.at (.returned row)))
  | .retried none => some (s.finish t (cr.at (.raised (.runtimeError
      "session insert failed and idempotent retry found no row"))))
  | .created _ | .returned _ | .raised _ | .aborted => none

/-- One label. A transaction id names one call for the whole run. -/
def step (s : Registry) : RegistryAction → Option Registry
  | .createSession t call =>
      match s.txs t with
      | some _ => none
      | none =>
          match call.mergeMetadata printer with
          | .error e => some (s.goto t ⟨call, [], .raised e⟩)
          | .ok metadata =>
              match metadata.requestId with
              | some _ => some (s.goto t ⟨call, metadata, .findSessionByRequestId⟩)
              | none => some (s.goto t ⟨call, metadata, .insertSession⟩)
  | .statement t drawn =>
      match s.txs t with
      | some cr => s.createStatement printer agents t cr drawn cr.phase
      | none => none
  | .abort t =>
      match s.txs t with
      | some cr => if cr.phase.ended then none else some (s.finish t (cr.at .aborted))
      | none => none

/-- All runs of `create_session` calls on an empty table. -/
def system : Transition.System Registry RegistryAction where
  initial s := s = empty
  step := step printer agents

/-- What the next statement of a call can do, by phase. -/
inductive CreateStatement (s : Registry) (t : TxId) (cr : Creation) :
    CreatePhase → Registry → Prop where
  | found {row : Session} {id : String} (tagged : cr.metadata.requestId = some id)
      (stored : s.findSessionByRequestId printer id = some row) :
      CreateStatement s t cr .findSessionByRequestId (s.goto t (cr.at (.existing row)))
  | missing : CreateStatement s t cr .findSessionByRequestId (s.goto t (cr.at .insertSession))
  | returnedExisting {row : Session} :
      CreateStatement s t cr (.existing row) (s.finish t (cr.at (.returned row)))
  | failed {id : String} (tagged : cr.metadata.requestId = some id)
      (clash : (∃ row ∈ s.rows, conflicts printer cr.metadata row = true) ∨
        agents cr.call.agentId = false) :
      CreateStatement s t cr .insertSession (s.goto t (cr.at .rollback))
  | refused {m : String} (untagged : cr.metadata.requestId = none)
      (clash : (∃ row ∈ s.rows, conflicts printer cr.metadata row = true) ∨
        agents cr.call.agentId = false) :
      CreateStatement s t cr .insertSession (s.finish t (cr.at (.raised (.runtimeError m))))
  | inserted {drawn : SessionId}
      (waited : ∀ p ∈ s.uncommitted, p.1 ≠ t → conflicts printer cr.metadata p.2 = false)
      (unique : ∀ row ∈ s.rows, conflicts printer cr.metadata row = false)
      (fresh : ∀ row ∈ s.allRows, row.id ≠ drawn) :
      CreateStatement s t cr .insertSession
        ((s.insert t (cr.row drawn)).goto t (cr.at (.commit (cr.row drawn))))
  | committed {row : Session} :
      CreateStatement s t cr (.commit row) ((s.withRow row).finish t (cr.at (.created row)))
  | rolledBack : CreateStatement s t cr .rollback (s.finish t (cr.at .retry))
  | retried : CreateStatement s t cr .retry
      (s.goto t (cr.at (.retried (cr.metadata.requestId.bind (s.findSessionByRequestId printer)))))
  | returnedRetried {row : Session} :
      CreateStatement s t cr (.retried (some row)) (s.finish t (cr.at (.returned row)))
  | lost {m : String} :
      CreateStatement s t cr (.retried none) (s.finish t (cr.at (.raised (.runtimeError m))))

variable {printer agents}

theorem createStatement_cases {s s' : Registry} {t : TxId} {cr : Creation} {drawn : SessionId}
    {phase : CreatePhase} (h : s.createStatement printer agents t cr drawn phase = some s') :
    CreateStatement printer agents s t cr phase s' := by
  cases phase with
  | findSessionByRequestId =>
      simp only [createStatement] at h
      split at h
      · rename_i row stored
        obtain ⟨id, tagged, stored⟩ := Option.bind_eq_some_iff.mp stored
        obtain rfl := Option.some.inj h
        exact .found tagged stored
      · obtain rfl := Option.some.inj h
        exact .missing
  | existing row =>
      obtain rfl := Option.some.inj h
      exact .returnedExisting
  | insertSession =>
      simp only [createStatement] at h
      split at h
      · cases h
      · rename_i waited
        split at h
        · rename_i clash
          have clash := clash.imp_left List.any_eq_true.mp
          split at h
          · rename_i id tagged
            obtain rfl := Option.some.inj h
            exact .failed tagged clash
          · rename_i untagged
            obtain rfl := Option.some.inj h
            exact .refused untagged clash
        · rename_i unique
          split at h
          · cases h
          · rename_i fresh
            obtain rfl := Option.some.inj h
            refine .inserted (fun p mem other => ?_) (fun row mem => ?_) fun row mem same => ?_
            · rw [← Bool.not_eq_true]
              intro clash
              exact waited (List.any_eq_true.mpr ⟨p, mem, by simp [other, clash]⟩)
            · rw [← Bool.not_eq_true]
              exact fun clash => unique (.inl (List.any_eq_true.mpr ⟨row, mem, clash⟩))
            · exact fresh (List.any_eq_true.mpr ⟨row, mem, by simp [same]⟩)
  | commit row =>
      obtain rfl := Option.some.inj h
      exact .committed
  | rollback =>
      obtain rfl := Option.some.inj h
      exact .rolledBack
  | retry =>
      obtain rfl := Option.some.inj h
      exact .retried
  | retried row =>
      cases row with
      | some row =>
          obtain rfl := Option.some.inj h
          exact .returnedRetried
      | none =>
          obtain rfl := Option.some.inj h
          exact .lost
  | created row => cases h
  | returned row => cases h
  | raised error => cases h
  | aborted => cases h

/-- What one label can do. -/
inductive Stepped (printer : Printer) (agents : AgentId → Bool) (s : Registry) :
    RegistryAction → Registry → Prop where
  | disagreeing {t : TxId} {call : CreateCall} {e : Exn} (fresh : s.txs t = none)
      (disagree : call.mergeMetadata printer = .error e) :
      Stepped printer agents s (.createSession t call) (s.goto t ⟨call, [], .raised e⟩)
  | begun {t : TxId} {call : CreateCall} {metadata : Payload} {phase : CreatePhase}
      (fresh : s.txs t = none) (merged : call.mergeMetadata printer = .ok metadata)
      (first : phase = .findSessionByRequestId ∨ phase = .insertSession) :
      Stepped printer agents s (.createSession t call) (s.goto t ⟨call, metadata, phase⟩)
  | statement {t : TxId} {cr : Creation} {drawn : SessionId} {s' : Registry}
      (running : s.txs t = some cr) (moved : CreateStatement printer agents s t cr cr.phase s') :
      Stepped printer agents s (.statement t drawn) s'
  | aborted {t : TxId} {cr : Creation} (running : s.txs t = some cr)
      (open' : cr.phase.ended = false) :
      Stepped printer agents s (.abort t) (s.finish t (cr.at .aborted))

/-- Inversion of the step function: everything one label can do. -/
theorem step_cases {s s' : Registry} {a : RegistryAction}
    (h : s.step printer agents a = some s') : Stepped printer agents s a s' := by
  cases a with
  | createSession t call =>
      simp only [step] at h
      split at h
      · cases h
      · rename_i fresh
        split at h
        · rename_i disagree
          obtain rfl := Option.some.inj h
          exact .disagreeing fresh disagree
        · rename_i merged
          split at h <;> obtain rfl := Option.some.inj h
          · exact .begun fresh merged (.inl rfl)
          · exact .begun fresh merged (.inr rfl)
  | statement t drawn =>
      simp only [step] at h
      split at h
      · rename_i running
        exact .statement running (createStatement_cases h)
      · cases h
  | abort t =>
      simp only [step] at h
      split at h
      · rename_i cr running
        split at h
        · cases h
        · rename_i open'
          obtain rfl := Option.some.inj h
          exact .aborted running (Bool.not_eq_true _ ▸ open')
      · cases h

theorem step_statement {s : Registry} {t : TxId} {cr : Creation} (running : s.txs t = some cr)
    (drawn : SessionId) : s.step printer agents (.statement t drawn) =
      s.createStatement printer agents t cr drawn cr.phase := by
  simp only [step, running]

section Projections

variable (s : Registry) (t : TxId) (cr : Creation) (row : Session)

@[simp] theorem goto_rows : (s.goto t cr).rows = s.rows := rfl
@[simp] theorem goto_uncommitted : (s.goto t cr).uncommitted = s.uncommitted := rfl
@[simp] theorem goto_txs : (s.goto t cr).txs = Function.update s.txs t (some cr) := rfl
@[simp] theorem finish_rows : (s.finish t cr).rows = s.rows := rfl
@[simp] theorem finish_txs : (s.finish t cr).txs = Function.update s.txs t (some cr) := rfl
@[simp] theorem insert_rows : (s.insert t row).rows = s.rows := rfl
@[simp] theorem insert_txs : (s.insert t row).txs = s.txs := rfl
@[simp] theorem insert_uncommitted :
    (s.insert t row).uncommitted = s.uncommitted ++ [(t, row)] := rfl
@[simp] theorem withRow_rows : (s.withRow row).rows = s.rows ++ [row] := rfl
@[simp] theorem withRow_uncommitted : (s.withRow row).uncommitted = s.uncommitted := rfl
@[simp] theorem withRow_txs : (s.withRow row).txs = s.txs := rfl

theorem mem_finish_uncommitted {p : TxId × Session} :
    p ∈ (s.finish t cr).uncommitted ↔ p ∈ s.uncommitted ∧ p.1 ≠ t := by
  simp [finish]

theorem finish_allRows_sublist : (s.finish t cr).allRows.Sublist s.allRows :=
  (List.Sublist.refl _).append (List.filter_sublist.map _)

end Projections

@[simp] theorem row_id (cr : Creation) (drawn : SessionId) : (cr.row drawn).id = drawn := rfl
@[simp] theorem at_phase (cr : Creation) (phase : CreatePhase) : (cr.at phase).phase = phase := rfl

end Registry

end Tename
