import Tename.Sessions.Serialization

/-!
# When a completed session stays as it is

`mark_complete` takes no advisory lock: its status change is serialized with an
emitter only by the lock on the session row, which an emitter takes at its
second-to-last statement. `Frozen` is the condition that keeps a session still:
the row is terminal, and no emitter is between its status check and its commit.
It is kept by every step; without it some continuation appends.

`Owned` accounts for the uncommitted rows and the row locks, so that a stalled
emitter of a completed session can be shown to run to its commit.
-/

namespace Tename

/-- The transaction has inserted `event` and not committed it. -/
def Tx.inserted (event : Event) : Tx → Prop
  | .emit _ (.bumpSequence e) | .emit _ (.commit e) => e = event
  | _ => False

namespace Store

variable {hash : SessionId → Nat} {s s' : Store} {t : TxId} {tx : Tx} {sid : SessionId}

/-- The session is terminal and no emitter is past its status check. -/
structure Frozen (s : Store) (sid : SessionId) : Prop where
  terminal : ∃ row, s.db.sessions sid = some row ∧ row.status ≠ .active
  quiet : ∀ t tx, s.txs t = some tx → ¬ tx.pastCheck sid

/-- The events and the pointer of a session are the same in both states. -/
def SameSession (sid : SessionId) (s s' : Store) : Prop :=
  s'.db.eventsOf sid = s.db.eventsOf sid ∧ s'.db.lastSequence sid = s.db.lastSequence sid

theorem Frozen.of_txs (h : s.Frozen sid)
    (terminal : ∃ row, s'.db.sessions sid = some row ∧ row.status ≠ .active)
    (txs : s'.txs = Function.update s.txs t (some tx)) (quiet : ¬ tx.pastCheck sid) :
    s'.Frozen sid := by
  refine ⟨terminal, fun t' tx' running => ?_⟩
  by_cases same : t' = t
  · subst same
    obtain rfl : tx = tx' := by simpa [txs] using running
    exact quiet
  · exact h.quiet t' tx' (by simpa [txs, same] using running)

/-- A step that leaves the database alone and moves one transaction. -/
theorem Frozen.move (h : s.Frozen sid) (db : s'.db = s.db)
    (txs : s'.txs = Function.update s.txs t (some tx)) (quiet : ¬ tx.pastCheck sid) :
    s'.Frozen sid ∧ SameSession sid s s' :=
  ⟨h.of_txs (db ▸ h.terminal) txs quiet, by simp [SameSession, db]⟩

theorem Frozen.emitStatement (h : s.Frozen sid) (serialized : s.Serialized hash)
    {call : EmitCall} {phase : EmitPhase} (running : s.txs t = some (.emit call phase))
    (moved : EmitStatement hash s t call phase s') :
    s'.Frozen sid ∧ SameSession sid s s' := by
  have quiet : ¬ (call.sessionId = sid ∧ phase.checked = true) := h.quiet t _ running
  cases moved with
  | acquired free => exact h.move rfl rfl (by simp [Tx.pastCheck, EmitPhase.checked])
  | found stored => exact h.move rfl rfl (by simp [Tx.pastCheck, EmitPhase.checked])
  | missing absent => exact h.move rfl rfl (by simp [Tx.pastCheck, EmitPhase.checked])
  | returnedExisting => exact h.move rfl rfl (by simp [Tx.pastCheck, EmitPhase.checked])
  | notFound absent => exact h.move rfl rfl (by simp [Tx.pastCheck, EmitPhase.checked])
  | terminal present ended => exact h.move rfl rfl (by simp [Tx.pastCheck, EmitPhase.checked])
  | loaded present active =>
      refine h.move rfl rfl ?_
      rintro ⟨rfl, _⟩
      obtain ⟨row, present', ended⟩ := h.terminal
      obtain rfl := Option.some.inj (present.symm.trans present')
      exact ended active
  | violated clash => exact h.move rfl rfl (by simp [Tx.pastCheck, EmitPhase.checked])
  | inserted => exact h.move rfl rfl fun past => quiet ⟨past.1, rfl⟩
  | bumped free => exact h.move rfl rfl fun past => quiet ⟨past.1, rfl⟩
  | committed =>
      obtain ⟨_, _, rfl⟩ := serialized.knows t _ running
      have other : call.sessionId ≠ sid := fun same => quiet ⟨same, rfl⟩
      refine ⟨h.of_txs ?_ rfl (by simp [Tx.pastCheck, EmitPhase.checked]),
        Database.eventsOf_appendEvent_ne other, Database.lastSequence_appendEvent_ne other.symm⟩
      obtain ⟨row, present, ended⟩ := h.terminal
      exact ⟨row, (Database.sessions_appendEvent_ne other.symm).trans present, ended⟩

theorem Frozen.markStatement (h : s.Frozen sid) {sid' : SessionId} {phase : MarkPhase}
    (moved : MarkStatement s t sid' phase s') : s'.Frozen sid ∧ SameSession sid s s' := by
  cases moved with
  | notFound absent => exact h.move rfl rfl (by simp [Tx.pastCheck])
  | terminal present ended => exact h.move rfl rfl (by simp [Tx.pastCheck])
  | active present active => exact h.move rfl rfl (by simp [Tx.pastCheck])
  | returnedUnchanged => exact h.move rfl rfl (by simp [Tx.pastCheck])
  | updated free => exact h.move rfl rfl (by simp [Tx.pastCheck])
  | committed =>
      refine ⟨h.of_txs ?_ rfl (by simp [Tx.pastCheck]), Database.eventsOf_completeSession,
        Database.lastSequence_completeSession⟩
      obtain ⟨row, present, ended⟩ := h.terminal
      by_cases same : sid = sid'
      · subst same
        exact ⟨{ row with status := .completed },
          by simp [Database.completeSession, Database.sessions_updateSession, present], by simp⟩
      · exact ⟨row, by simpa [same] using present, ended⟩

/-- A frozen session stays frozen, with its events and its pointer unchanged. -/
theorem Frozen.step (h : s.Frozen sid) (serialized : s.Serialized hash) {a : StoreAction}
    (stepped : s.step hash a = some s') : s'.Frozen sid ∧ SameSession sid s s' := by
  cases step_cases stepped with
  | @created sid' agentId metadata fresh =>
      obtain ⟨row, present, ended⟩ := h.terminal
      have other : sid ≠ sid' := by
        rintro rfl
        rw [fresh] at present
        cases present
      refine ⟨⟨⟨row, ?_, ended⟩, h.quiet⟩, Database.eventsOf_insertSession,
        Database.lastSequence_insertSession fresh⟩
      simpa [Database.insertSession, other] using present
  | refused fresh oversized => exact h.move rfl rfl (by simp [Tx.pastCheck, EmitPhase.checked])
  | begun fresh fits => exact h.move rfl rfl (by simp [Tx.pastCheck, EmitPhase.checked])
  | marking fresh => exact h.move rfl rfl (by simp [Tx.pastCheck])
  | emit running moved => exact h.emitStatement serialized running moved
  | mark running moved => exact h.markStatement moved
  | @aborted t tx running open' =>
      cases tx with
      | emit call phase =>
          exact h.move rfl rfl (by simp [Tx.abort, Tx.pastCheck, EmitPhase.checked])
      | mark sid' phase => exact h.move rfl rfl (by simp [Tx.abort, Tx.pastCheck])

theorem Frozen.later (h : s.Frozen sid) (serialized : s.Serialized hash)
    (later : (system hash).Later s s') : SameSession sid s s' := by
  have kept := Transition.System.Reaches.preserves
    (P := fun u => u.Serialized hash ∧ u.Frozen sid ∧ SameSession sid s u) later
    ⟨serialized, h, rfl, rfl⟩ ?_
  · exact kept.2.2
  · rintro u a u' ⟨serialized, frozen, events, last⟩ _ stepped
    obtain ⟨frozen', events', last'⟩ := frozen.step serialized stepped
    exact ⟨serialized.step stepped, frozen', events'.trans events, last'.trans last⟩

/-- Whose the uncommitted rows and the row locks are. -/
structure Owned (s : Store) : Prop where
  pending : ∀ t e, (t, e) ∈ s.uncommitted → ∃ tx, s.txs t = some tx ∧ tx.inserted e
  rows : ∀ sid t, s.rowLocks sid = some t ↔ ∃ tx, s.txs t = some tx ∧ tx.writes sid

theorem owned_empty : Owned empty where
  pending t e mem := by cases mem
  rows sid t := by simp [empty]

/-- A step of `t`: the others own what they owned, and `t` what its new phase says. -/
theorem Owned.move (h : s.Owned) (txs : s'.txs = Function.update s.txs t (some tx))
    (pending : ∀ t' e, (t', e) ∈ s'.uncommitted →
      (t' ≠ t ∧ (t', e) ∈ s.uncommitted) ∨ (t' = t ∧ tx.inserted e))
    (rows : ∀ sid t', s'.rowLocks sid = some t' ↔
      (t' ≠ t ∧ s.rowLocks sid = some t') ∨ (t' = t ∧ tx.writes sid)) : s'.Owned where
  pending t' e mem := by
    rcases pending t' e mem with ⟨other, mem⟩ | ⟨rfl, inserted⟩
    · simpa [txs, other] using h.pending t' e mem
    · exact ⟨tx, by simp [txs], inserted⟩
  rows sid t' := by
    rw [rows sid t']
    by_cases same : t' = t
    · subst same
      simp [txs]
    · simpa [txs, same] using h.rows sid t'

/-- A step between phases that own nothing. -/
theorem Owned.goto (h : s.Owned) {before : Tx} (running : s.txs t = some before)
    (idle : ∀ e, ¬ before.inserted e) (unlocked : ∀ sid, ¬ before.writes sid)
    (locks : s'.rowLocks = s.rowLocks) (rows : s'.uncommitted = s.uncommitted)
    (txs : s'.txs = Function.update s.txs t (some tx)) (idle' : ∀ sid, ¬ tx.writes sid) :
    s'.Owned := by
  refine h.move txs ?_ ?_
  · intro t' e mem
    rw [rows] at mem
    refine .inl ⟨?_, mem⟩
    rintro rfl
    obtain ⟨tx', running', inserted⟩ := h.pending t' e mem
    obtain rfl := Option.some.inj (running.symm.trans running')
    exact idle e inserted
  · intro sid t'
    rw [locks]
    by_cases same : t' = t
    · subst same
      simp [idle', h.rows, running, unlocked]
    · simp [same]

theorem Owned.begin (h : s.Owned) (fresh : s.txs t = none) (idle : ∀ sid, ¬ tx.writes sid) :
    (s.goto t tx).Owned := by
  refine h.move rfl ?_ ?_
  · intro t' e mem
    refine .inl ⟨?_, mem⟩
    rintro rfl
    obtain ⟨tx', running, _⟩ := h.pending t' e mem
    rw [fresh] at running
    cases running
  · intro sid t'
    by_cases same : t' = t
    · subst same
      simp [idle, h.rows, fresh]
    · simp [same]

/-- The end of a transaction releases what it owned. -/
theorem Owned.finish (h : s.Owned) (db : Database) (idle : ∀ sid, ¬ tx.writes sid) :
    ((s.withDb db).finish t tx).Owned := by
  refine h.move rfl ?_ ?_
  · intro t' e mem
    exact .inl ((mem_finish_uncommitted _ _ _).mp mem).symm
  · intro sid t'
    constructor
    · intro held
      exact .inl (finish_rowLocks_some _ _ _ held).symm
    · rintro (⟨other, held⟩ | ⟨_, writes⟩)
      · have held : s.rowLocks sid = some t' := held
        simp [Store.finish, held, other]
      · exact absurd writes (idle sid)

/-- The update of a session row that nobody else has updated. -/
theorem Owned.lockRow (h : s.Owned) {before : Tx} (running : s.txs t = some before)
    (free : s.rowLocks sid = none) (kept : ∀ e, before.inserted e → tx.inserted e)
    (unlocked : ∀ sid', ¬ before.writes sid') (writes : ∀ sid', tx.writes sid' ↔ sid' = sid) :
    ((s.lockRow t sid).goto t tx).Owned := by
  refine h.move rfl ?_ ?_
  · intro t' e mem
    by_cases same : t' = t
    · subst same
      obtain ⟨tx', running', inserted⟩ := h.pending t' e mem
      obtain rfl := Option.some.inj (running.symm.trans running')
      exact .inr ⟨rfl, kept e inserted⟩
    · exact .inl ⟨same, mem⟩
  · intro sid' t'
    have mine : s.rowLocks sid' = some t → False := fun held => by
      obtain ⟨tx', running', writes'⟩ := (h.rows sid' t).mp held
      obtain rfl := Option.some.inj (running.symm.trans running')
      exact unlocked sid' writes'
    by_cases row : sid' = sid
    · subst row
      simp [Store.lockRow, writes, free, eq_comm]
    · by_cases same : t' = t
      · subst same
        simpa [Store.lockRow, row, writes] using mine
      · simp [Store.lockRow, row, same]

theorem Owned.emitStatement (h : s.Owned) {call : EmitCall} {phase : EmitPhase}
    (running : s.txs t = some (.emit call phase)) (moved : EmitStatement hash s t call phase s') :
    s'.Owned := by
  cases moved with
  | acquired free =>
      exact h.goto running (by simp [Tx.inserted]) (by simp [Tx.writes]) rfl rfl rfl
        (by simp [Tx.writes])
  | found stored =>
      exact h.goto running (by simp [Tx.inserted]) (by simp [Tx.writes]) rfl rfl rfl
        (by simp [Tx.writes])
  | missing absent =>
      exact h.goto running (by simp [Tx.inserted]) (by simp [Tx.writes]) rfl rfl rfl
        (by simp [Tx.writes])
  | returnedExisting => exact h.finish s.db (by simp [Tx.writes])
  | notFound absent => exact h.finish s.db (by simp [Tx.writes])
  | terminal present ended => exact h.finish s.db (by simp [Tx.writes])
  | loaded present active =>
      exact h.goto running (by simp [Tx.inserted]) (by simp [Tx.writes]) rfl rfl rfl
        (by simp [Tx.writes])
  | violated clash => exact h.finish s.db (by simp [Tx.writes])
  | @inserted newSequence =>
      refine h.move rfl ?_ ?_
      · intro t' e mem
        rcases List.mem_append.mp mem with old | new
        · refine .inl ⟨?_, old⟩
          rintro rfl
          obtain ⟨tx', running', inserted⟩ := h.pending t' e old
          obtain rfl := Option.some.inj (running.symm.trans running')
          exact inserted
        · obtain ⟨rfl, rfl⟩ : t' = t ∧ e = call.event newSequence := by simpa using new
          exact .inr ⟨rfl, rfl⟩
      · intro sid t'
        by_cases same : t' = t
        · subst same
          simp [h.rows, running, Tx.writes]
        · simp [same]
  | bumped free =>
      exact h.lockRow running free (fun _ inserted => inserted) (by simp [Tx.writes])
        fun _ => eq_comm
  | committed => exact h.finish _ (by simp [Tx.writes])

theorem Owned.markStatement (h : s.Owned) {sid : SessionId} {phase : MarkPhase}
    (running : s.txs t = some (.mark sid phase)) (moved : MarkStatement s t sid phase s') :
    s'.Owned := by
  cases moved with
  | notFound absent => exact h.finish s.db (by simp [Tx.writes])
  | terminal present ended =>
      exact h.goto running (by simp [Tx.inserted]) (by simp [Tx.writes]) rfl rfl rfl
        (by simp [Tx.writes])
  | active present active =>
      exact h.goto running (by simp [Tx.inserted]) (by simp [Tx.writes]) rfl rfl rfl
        (by simp [Tx.writes])
  | returnedUnchanged => exact h.finish s.db (by simp [Tx.writes])
  | updated free =>
      exact h.lockRow running free (by simp [Tx.inserted]) (by simp [Tx.writes]) fun _ => eq_comm
  | committed => exact h.finish _ (by simp [Tx.writes])

theorem Owned.step (h : s.Owned) {a : StoreAction} (stepped : s.step hash a = some s') :
    s'.Owned := by
  cases step_cases stepped with
  | created fresh => exact ⟨h.pending, h.rows⟩
  | refused fresh oversized => exact h.begin fresh (by simp [Tx.writes])
  | begun fresh fits => exact h.begin fresh (by simp [Tx.writes])
  | marking fresh => exact h.begin fresh (by simp [Tx.writes])
  | emit running moved => exact h.emitStatement running moved
  | mark running moved => exact h.markStatement running moved
  | @aborted t tx running open' =>
      cases tx with
      | emit call phase => exact h.finish s.db (by simp [Tx.abort, Tx.writes])
      | mark sid phase => exact h.finish s.db (by simp [Tx.abort, Tx.writes])

theorem owned_of_reachable (h : (system hash).Reachable s) : s.Owned :=
  h.invariant (fun _ initial => initial ▸ owned_empty) fun _ _ _ holds _ stepped =>
    holds.step stepped

/-- The insert of a serialized emitter neither waits nor fails. -/
theorem insert_enabled (serialized : s.Serialized hash) (owned : s.Owned) {call : EmitCall}
    {n : Nat}
    (running : s.txs t = some (.emit call (.insertEvent n))) :
    s.step hash (.statement t) = some ((s.insert t (call.event n)).goto t
      (.emit call (.bumpSequence (call.event n)))) := by
  obtain ⟨absent, _, rfl⟩ := serialized.knows t _ running
  have waits : (s.uncommitted.any fun row => row.1 ≠ t ∧
      Database.conflicts (call.event (s.db.lastSequence call.sessionId + 1)) row.2) = false := by
    refine List.any_eq_false.mpr ?_
    rintro ⟨t', f⟩ mem clash
    obtain ⟨other, clash⟩ : t' ≠ t ∧
        Database.conflicts (call.event (s.db.lastSequence call.sessionId + 1)) f = true := by
      simpa only [decide_eq_true_eq] using clash
    obtain ⟨same, _⟩ := of_decide_eq_true clash
    obtain ⟨tx, running', inserted⟩ := owned.pending t' f mem
    have knows' := serialized.knows t' tx running'
    have apart : ∀ call' phase', tx = .emit call' phase' → phase'.locked = true →
        call'.sessionId ≠ call.sessionId := by
      rintro call' phase' rfl locked' same'
      exact other (serialized.exclusive running' running locked' rfl same')
    cases tx with
    | mark sid phase => exact inserted
    | emit call' phase' =>
        cases phase' with
        | bumpSequence e | commit e =>
            obtain rfl : e = f := inserted
            obtain ⟨_, _, rfl⟩ := knows'
            exact apart call' _ rfl rfl same
        | _ => exact inserted
  have fails : s.db.events.any
      (Database.conflicts (call.event (s.db.lastSequence call.sessionId + 1))) = false :=
    List.any_eq_false.mpr fun f mem => by
      simp [(serialized.dense call.sessionId).not_conflicts absent mem]
  simp only [step, running, emitStatement, waits, fails]
  rfl

theorem bump_enabled {call : EmitCall} {event : Event}
    (running : s.txs t = some (.emit call (.bumpSequence event)))
    (free : s.rowLocks call.sessionId = none) :
    s.step hash (.statement t) =
      some ((s.lockRow t call.sessionId).goto t (.emit call (.commit event))) := by
  simp [step, running, emitStatement, free]

theorem commit_enabled {call : EmitCall} {event : Event}
    (running : s.txs t = some (.emit call (.commit event))) :
    s.step hash (.statement t) = some ((s.withDb (s.db.appendEvent event)).finish t
      (.emit call (.returned event))) := by
  simp [step, running, emitStatement]

theorem later_of_step {a : StoreAction} (stepped : s.step hash a = some s') :
    (system hash).Later s s' :=
  Transition.System.Later.step stepped

/-- An emitter past its check can still commit: only the row lock may hold it up. -/
theorem append_of_pastCheck (serialized : s.Serialized hash) (owned : s.Owned)
    (running : s.txs t = some tx) (past : tx.pastCheck sid) (free : s.rowLocks sid = none) :
    ∃ s', (system hash).Later s s' ∧ ¬ SameSession sid s s' := by
  cases tx with
  | mark sid' phase => exact past.elim
  | emit call phase =>
      obtain ⟨rfl, checked⟩ := past
      have bump : ∀ u : Store, u.db = s.db → u.rowLocks = s.rowLocks →
          u.txs t = some (.emit call
            (.bumpSequence (call.event (s.db.lastSequence call.sessionId + 1)))) →
          ∃ s', (system hash).Later u s' ∧ ¬ SameSession call.sessionId s s' := by
        intro u db rows running'
        refine ⟨_, (later_of_step (bump_enabled running' (rows ▸ free))).trans
          (later_of_step (commit_enabled (Function.update_self ..))), fun same => ?_⟩
        have longer := congrArg List.length same.1
        simp [db, Database.eventsOf_appendEvent, EmitCall.event] at longer
      cases phase with
      | insertEvent n =>
          obtain ⟨_, _, rfl⟩ := serialized.knows t _ running
          obtain ⟨s', later, grown⟩ := bump ((s.insert t (call.event _)).goto t (.emit call
            (.bumpSequence (call.event _)))) rfl rfl (Function.update_self ..)
          exact ⟨s', (later_of_step (insert_enabled serialized owned running)).trans later, grown⟩
      | bumpSequence event =>
          obtain ⟨_, _, rfl⟩ := serialized.knows t _ running
          exact bump s rfl rfl running
      | commit event =>
          have held := (owned.rows call.sessionId t).mpr ⟨_, running, rfl⟩
          rw [free] at held
          cases held
      | _ => cases checked

/-- The race runs to the commit of the completion, with the second emitter past
its check, and on to that emitter's own commit. -/
theorem raceSchedule_runs : ∃ s s' s'', (system fun _ => 0).run empty raceSchedule = some s ∧
    s.txs 2 = some (.mark "s" .commit) ∧ s.step (fun _ => 0) (.statement 2) = some s' ∧
    (system fun _ => 0).run s' [.statement 1, .statement 1, .statement 1] = some s'' ∧
    (s'.db.eventsOf "s").length = 1 ∧ (s''.db.eventsOf "s").length = 2 :=
  ⟨_, _, _, rfl, rfl, rfl, rfl, rfl, rfl⟩

/-- An event is committed to a session after its completion has been. -/
theorem completion_does_not_freeze : ∃ s s' s'', (system fun _ => 0).Reachable s ∧
    s.txs 2 = some (.mark "s" .commit) ∧ s.step (fun _ => 0) (.statement 2) = some s' ∧
    (system fun _ => 0).Later s' s'' ∧ s''.db.eventsOf "s" ≠ s'.db.eventsOf "s" := by
  obtain ⟨s, s', s'', ran, committing, committed, rest, one, two⟩ := raceSchedule_runs
  refine ⟨s, s', s'', ⟨empty, rfl, Transition.System.later_of_run ran⟩, committing, committed,
    Transition.System.later_of_run rest, fun same => ?_⟩
  rw [same, one] at two
  cases two

/-- A completion freezes its session exactly when, at its commit, no emitter of
the session is between its status check and its own commit. -/
theorem completion_freezes_iff (hash : SessionId → Nat) (s s' : Store) (t : TxId) (sid : SessionId)
    (reachable : (system hash).Reachable s) (committing : s.txs t = some (.mark sid .commit))
    (committed : s.step hash (.statement t) = some s') :
    (∀ s'', (system hash).Later s' s'' → s''.db.eventsOf sid = s'.db.eventsOf sid ∧
      s''.db.lastSequence sid = s'.db.lastSequence sid) ↔
    ∀ t' tx, s.txs t' = some tx → ¬ tx.pastCheck sid := by
  have serialized := serialized_of_reachable reachable
  have owned := owned_of_reachable reachable
  obtain rfl : (s.withDb (s.db.completeSession sid)).finish t (.mark sid (.returned .completed)) =
      s' := by simpa [step, committing, markStatement] using committed
  constructor
  · intro still t' tx running past
    have other : t' ≠ t := by
      rintro rfl
      obtain rfl := Option.some.inj (committing.symm.trans running)
      exact past
    obtain ⟨s'', later, grown⟩ := append_of_pastCheck (serialized.step committed)
      (owned.step committed) (t := t') (by simpa [other] using running) past (by
        have held : s.rowLocks sid = some t := (owned.rows sid t).mpr ⟨_, committing, rfl⟩
        simp [Store.finish, held])
    exact grown (still s'' later)
  · intro quiet s'' later
    refine Frozen.later ⟨?_, ?_⟩ (serialized.step committed) later
    · have known : s.db.sessions sid ≠ none := serialized.knows t _ committing
      obtain ⟨row, present⟩ := Option.ne_none_iff_exists'.mp known
      exact ⟨{ row with status := .completed },
        by simp [Database.completeSession, Database.sessions_updateSession, present], by simp⟩
    · intro t' tx running past
      by_cases same : t' = t
      · subst same
        obtain rfl : Tx.mark sid (.returned .completed) = tx := by simpa using running
        exact past
      · exact quiet t' tx (by simpa [same] using running) past

theorem completion_freezes_iff_race : ∃ s s' : Store, s.txs 2 = some (.mark "s" .commit) ∧
    ((∀ s'', (system fun _ => 0).Later s' s'' → s''.db.eventsOf "s" = s'.db.eventsOf "s" ∧
      s''.db.lastSequence "s" = s'.db.lastSequence "s") ↔
    ∀ t' tx, s.txs t' = some tx → ¬ tx.pastCheck "s") := by
  obtain ⟨s, s', s'', ran, committing, committed, _⟩ := raceSchedule_runs
  exact ⟨s, s', committing, completion_freezes_iff _ s s' 2 "s"
    ⟨empty, rfl, Transition.System.later_of_run ran⟩ committing committed⟩

end Store

end Tename
