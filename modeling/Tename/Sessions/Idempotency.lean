import Tename.Sessions.Freeze

/-!
# Retries return the stored event

A stored event is never changed or removed, and a call with the id of a stored
event has one way to go: wait for the lock, find the event, return it. The
duplicate check stands before the terminal check, so this holds on terminal
sessions too.

What has to be excluded is a call that has already been refused. `Refusals`
says what is true for good once a call has been: a terminal session without
the id is frozen without it.
-/

namespace Tename

namespace Store

variable {hash : SessionId → Nat} {s s' : Store} {t : TxId} {tx : Tx}

/-- The committed events only grow at the end. -/
theorem step_extends_events {a : StoreAction} (stepped : s.step hash a = some s') :
    s.db.events <+: s'.db.events := by
  cases step_cases stepped with
  | emit running moved =>
      cases moved with
      | committed => exact List.prefix_append _ _
      | _ => exact List.prefix_refl _
  | mark running moved => cases moved <;> exact List.prefix_refl _
  | _ => exact List.prefix_refl _

theorem later_extends_events (later : (system hash).Later s s') : s.db.events <+: s'.db.events :=
  later.relates (R := fun s s' => s.db.events <+: s'.db.events) (fun _ => List.prefix_refl _)
    (fun _ _ _ => List.IsPrefix.trans) fun _ _ _ _ stepped => step_extends_events stepped

/-- What holds for good once a call has been refused with an error. -/
def RefusedFor (s : Store) (call : EmitCall) : Exn → Prop
  | .validationError _ => maxPayloadBytes < call.payload.byteLength
  | .notFoundError _ => True
  | .failedPreconditionError _ =>
      s.Frozen call.sessionId ∧ s.db.findEventById call.sessionId call.eventId = none
  | _ => False

def Refusals (s : Store) : Prop :=
  ∀ t call error, s.txs t = some (.emit call (.raised error)) → s.RefusedFor call error

theorem RefusedFor.step {call : EmitCall} {error : Exn} (h : s.RefusedFor call error)
    (serialized : s.Serialized hash) {a : StoreAction} (stepped : s.step hash a = some s') :
    s'.RefusedFor call error := by
  cases error with
  | failedPreconditionError m =>
      obtain ⟨frozen, absent⟩ := h
      obtain ⟨frozen', events, _⟩ := frozen.step serialized stepped
      exact ⟨frozen', by simpa [Database.findEventById, events] using absent⟩
  | validationError m => exact h
  | notFoundError m => trivial
  | _ => exact h

/-- Only the transaction that moves can become a refused call. -/
theorem Refusals.of_txs (h : s.Refusals) (serialized : s.Serialized hash) {a : StoreAction}
    (stepped : s.step hash a = some s') (txs : s'.txs = Function.update s.txs t (some tx))
    (own : ∀ call error, tx = .emit call (.raised error) → s'.RefusedFor call error) :
    s'.Refusals := by
  intro t' call error running
  by_cases same : t' = t
  · subst same
    exact own call error (by simpa [txs] using running)
  · exact (h t' call error (by simpa [txs, same] using running)).step serialized stepped

theorem Refusals.step (h : s.Refusals) (serialized : s.Serialized hash) {a : StoreAction}
    (stepped : s.step hash a = some s') : s'.Refusals := by
  cases step_cases stepped with
  | created fresh =>
      intro t call error running
      exact (h t call error running).step serialized stepped
  | refused fresh oversized =>
      refine h.of_txs serialized stepped rfl ?_
      rintro _ _ ⟨⟩
      exact oversized
  | begun fresh fits => exact h.of_txs serialized stepped rfl (by rintro _ _ ⟨⟩)
  | marking fresh => exact h.of_txs serialized stepped rfl (by rintro _ _ ⟨⟩)
  | mark running moved =>
      cases moved <;> exact h.of_txs serialized stepped rfl (by rintro _ _ ⟨⟩)
  | @aborted t tx running open' =>
      cases tx <;> exact h.of_txs serialized stepped rfl (by rintro _ _ ⟨⟩)
  | @emit t call phase _ running moved =>
      have knows := serialized.knows t _ running
      cases moved with
      | notFound absent =>
          refine h.of_txs serialized stepped rfl ?_
          rintro _ _ ⟨⟩
          trivial
      | terminal present ended =>
          refine h.of_txs serialized stepped rfl ?_
          rintro _ _ ⟨⟩
          refine ⟨⟨⟨_, present, ended⟩, ?_⟩, knows⟩
          rintro t' tx' running' past
          by_cases same : t' = t
          · subst same
            obtain rfl : Tx.emit call (.raised _) = tx' := by simpa using running'
            exact absurd past.2 (by simp [EmitPhase.checked])
          · cases tx' with
            | mark sid phase => exact past
            | emit call' phase' =>
                -- The refusing call holds the lock, so nobody else is past the check.
                refine same (serialized.exclusive (by simpa [same] using running') running ?_ rfl
                  past.1)
                cases phase' <;> simp_all [Tx.pastCheck, EmitPhase.checked, EmitPhase.locked]
      | violated clash =>
          obtain ⟨absent, _, rfl⟩ := knows
          obtain ⟨f, mem, clash⟩ := clash
          rw [(serialized.dense call.sessionId).not_conflicts absent mem] at clash
          cases clash
      | _ => exact h.of_txs serialized stepped rfl (by rintro _ _ ⟨⟩)

theorem refusals_of_reachable (h : (system hash).Reachable s) : s.Refusals := by
  refine (h.invariant (P := fun s => s.Serialized hash ∧ s.Refusals) ?_ ?_).2
  · rintro _ rfl
    exact ⟨serialized_empty, by rintro t call error ⟨⟩⟩
  · rintro u a u' ⟨serialized, refusals⟩ _ stepped
    exact ⟨serialized.step stepped, refusals.step serialized stepped⟩

/-- A call on its way to return `event`, or cut off on it; `s₀` is the state in
which `event` was returned first. -/
def Answers (s₀ : Store) (t : TxId) (call : EmitCall) (event : Event) : EmitPhase → Prop
  | .acquireSessionAdvisoryLock | .findEventById | .aborted => True
  | .existing e | .returned e => e = event
  -- A call that ended before the session existed.
  | .raised (.notFoundError m) => s₀.txs t = some (.emit call (.raised (.notFoundError m)))
  | _ => False

/-- The event is stored, and every call with its key answers with it. -/
structure Settled (s₀ : Store) (event : Event) (s : Store) : Prop where
  stored : event ∈ s.db.events
  answers : ∀ t call phase, s.txs t = some (.emit call phase) →
    call.sessionId = event.sessionId → call.eventId = event.id →
    call.payload.byteLength ≤ maxPayloadBytes → Answers s₀ t call event phase

variable {s₀ : Store} {event : Event}

theorem eq_of_stored (serialized : s.Serialized hash) {e : Event} (stored : event ∈ s.db.events)
    (stored' : e ∈ s.db.events) (session : e.sessionId = event.sessionId) (id : e.id = event.id) :
    e = event :=
  List.inj_on_of_nodup_map (serialized.dense event.sessionId).distinct
    (Database.mem_eventsOf.mpr ⟨stored', session⟩) (Database.mem_eventsOf.mpr ⟨stored, rfl⟩) id

theorem found_of_stored (serialized : s.Serialized hash) {call : EmitCall}
    (stored : event ∈ s.db.events) (session : call.sessionId = event.sessionId)
    (id : call.eventId = event.id) :
    s.db.findEventById call.sessionId call.eventId = some event := by
  cases found : s.db.findEventById call.sessionId call.eventId with
  | none =>
      exact absurd id.symm (Database.findEventById_eq_none.mp found event
        (Database.mem_eventsOf.mpr ⟨stored, session.symm⟩))
  | some e =>
      obtain ⟨mem, same⟩ := Database.mem_of_findEventById found
      obtain ⟨mem, owner⟩ := Database.mem_eventsOf.mp mem
      rw [eq_of_stored serialized stored mem (owner.trans session) (same.trans id)]

/-- A session with a stored event has a row. -/
theorem present_of_stored (serialized : s.Serialized hash) (stored : event ∈ s.db.events) :
    s.db.sessions event.sessionId ≠ none := by
  intro absent
  have sequences := (serialized.dense event.sessionId).sequences
  have mem := Database.mem_eventsOf.mpr ⟨stored, rfl⟩
  simp only [Database.lastSequence, absent] at sequences
  rw [List.map_eq_nil_iff.mp sequences] at mem
  cases mem

/-- In the state in which the event has been returned. -/
theorem settled_of_returned (reachable : (system hash).Reachable s) {call : EmitCall}
    (returned : s.txs t = some (.emit call (.returned event))) : Settled s event s := by
  have serialized := serialized_of_reachable reachable
  obtain ⟨stored, id⟩ := serialized.knows t _ returned
  obtain ⟨stored, owner⟩ := Database.mem_eventsOf.mp stored
  refine ⟨stored, fun t' call' phase running session id' fits => ?_⟩
  have found := found_of_stored serialized stored session id'
  have knows : s.db.Sees call' phase := serialized.knows t' _ running
  cases phase with
  | acquireSessionAdvisoryLock => trivial
  | findEventById => trivial
  | aborted => trivial
  | existing e | returned e =>
      obtain ⟨mem, same⟩ := knows
      obtain ⟨mem, owner'⟩ := Database.mem_eventsOf.mp mem
      exact eq_of_stored serialized stored mem (owner'.trans session) (same.trans id')
  | loadSessionForEmit =>
      have absent : _ = none := knows
      rw [found] at absent
      cases absent
  | insertEvent n | bumpSequence e | commit e =>
      obtain ⟨absent, _⟩ := knows
      rw [found] at absent
      cases absent
  | raised error =>
      have refused := refusals_of_reachable reachable t' call' error running
      cases error with
      | notFoundError m => exact running
      | validationError m => exact absurd refused (Nat.not_lt.mpr fits)
      | failedPreconditionError m =>
          obtain ⟨_, absent⟩ := refused
          rw [found] at absent
          cases absent
      | _ => exact refused

/-- Moving one transaction of a settled store: only its own phase is to be checked. -/
theorem Settled.of_txs (h : Settled s₀ event s) {a : StoreAction}
    (stepped : s.step hash a = some s') (txs : s'.txs = Function.update s.txs t (some tx))
    (own : ∀ call phase, tx = .emit call phase → call.sessionId = event.sessionId →
      call.eventId = event.id → call.payload.byteLength ≤ maxPayloadBytes →
      Answers s₀ t call event phase) : Settled s₀ event s' where
  stored := (step_extends_events stepped).subset h.stored
  answers t' call phase running session id fits := by
    by_cases same : t' = t
    · subst same
      exact own call phase (by simpa [txs] using running) session id fits
    · exact h.answers t' call phase (by simpa [txs, same] using running) session id fits

theorem Settled.step (h : Settled s₀ event s) (serialized : s.Serialized hash) {a : StoreAction}
    (stepped : s.step hash a = some s') : Settled s₀ event s' := by
  cases step_cases stepped with
  | created fresh => exact ⟨h.stored, h.answers⟩
  | refused fresh oversized =>
      refine h.of_txs stepped rfl ?_
      rintro _ _ ⟨⟩ _ _ fits
      exact absurd oversized (Nat.not_lt.mpr fits)
  | begun fresh fits =>
      refine h.of_txs stepped rfl ?_
      rintro _ _ ⟨⟩ _ _ _
      trivial
  | marking fresh => exact h.of_txs stepped rfl (by rintro _ _ ⟨⟩)
  | mark running moved => cases moved <;> exact h.of_txs stepped rfl (by rintro _ _ ⟨⟩)
  | @aborted t tx running open' =>
      cases tx with
      | emit call phase =>
          refine h.of_txs stepped rfl ?_
          rintro _ _ ⟨⟩ _ _ _
          trivial
      | mark sid phase => exact h.of_txs stepped rfl (by rintro _ _ ⟨⟩)
  | @emit t call phase _ running moved =>
      have answers := h.answers t call phase running
      have present : call.sessionId = event.sessionId → s.db.sessions call.sessionId ≠ none :=
        fun session => session ▸ present_of_stored serialized h.stored
      cases moved with
      | @found e stored =>
          refine h.of_txs stepped rfl ?_
          rintro _ _ ⟨⟩ session id _
          rw [found_of_stored serialized h.stored session id] at stored
          exact (Option.some.inj stored).symm
      | missing absent =>
          refine h.of_txs stepped rfl ?_
          rintro _ _ ⟨⟩ session id _
          rw [found_of_stored serialized h.stored session id] at absent
          cases absent
      | acquired free => exact h.of_txs stepped rfl (by rintro _ _ ⟨⟩ _ _ _; trivial)
      | returnedExisting =>
          refine h.of_txs stepped rfl ?_
          rintro _ _ ⟨⟩ session id fits
          exact answers session id fits
      | _ =>
          refine h.of_txs stepped rfl ?_
          rintro _ _ ⟨⟩ session id fits
          exact (answers session id fits).elim

theorem Settled.later (h : Settled s₀ event s) (serialized : s.Serialized hash)
    (later : (system hash).Later s s') : s'.Serialized hash ∧ Settled s₀ event s' := by
  refine later.preserves (P := fun u => u.Serialized hash ∧ Settled s₀ event u)
    ⟨serialized, h⟩ ?_
  rintro u a u' ⟨serialized, settled⟩ _ stepped
  exact ⟨serialized.step stepped, settled.step serialized stepped⟩

/-- Every statement of a call with the key of a stored event leaves the committed rows alone. -/
theorem Settled.statement_db (h : Settled s₀ event s) {call : EmitCall} {phase : EmitPhase}
    (running : s.txs t = some (.emit call phase)) (session : call.sessionId = event.sessionId)
    (id : call.eventId = event.id) (fits : call.payload.byteLength ≤ maxPayloadBytes)
    (stepped : s.step hash (.statement t) = some s') : s'.db = s.db := by
  have answers := h.answers t call phase running session id fits
  have moved : EmitStatement hash s t call phase s' :=
    emitStatement_cases (by simpa only [Store.step, running] using stepped)
  cases moved with
  | committed => exact answers.elim
  | _ => rfl

/-- A retry that has the lock, or finds it free, returns the stored event. -/
theorem Settled.returns (h : Settled s₀ event s) (serialized : s.Serialized hash) {call : EmitCall}
    {phase : EmitPhase} (running : s.txs t = some (.emit call phase))
    (session : call.sessionId = event.sessionId) (id : call.eventId = event.id)
    (fits : call.payload.byteLength ≤ maxPayloadBytes) (unfinished : phase.ended = false)
    (free : phase.locked = true ∨ s.locks (hash call.sessionId) = none) :
    ∃ n s', (system hash).run s (List.replicate n (.statement t)) = some s' ∧
      s'.txs t = some (.emit call (.returned event)) ∧ s'.db = s.db := by
  have answers := h.answers t call phase running session id fits
  have found := found_of_stored serialized h.stored session id
  have fromExisting : ∀ u : Store, u.db = s.db → u.txs t = some (.emit call (.existing event)) →
      ∃ s', (system hash).run u (List.replicate 1 (.statement t)) = some s' ∧
        s'.txs t = some (.emit call (.returned event)) ∧ s'.db = s.db := by
    intro u db running
    refine ⟨u.finish t (.emit call (.returned event)), ?_, Function.update_self .., db⟩
    exact Transition.System.run_cons (show u.step hash (.statement t) = _ by
      simp [Store.step, running, Store.emitStatement])
  have fromFind : ∀ u : Store, u.db = s.db → u.txs t = some (.emit call .findEventById) →
      ∃ s', (system hash).run u (List.replicate 2 (.statement t)) = some s' ∧
        s'.txs t = some (.emit call (.returned event)) ∧ s'.db = s.db := by
    intro u db running
    obtain ⟨s', ran, done⟩ := fromExisting (u.goto t (.emit call (.existing event))) db
      (Function.update_self ..)
    refine ⟨s', (Transition.System.run_cons ?_).trans ran, done⟩
    show u.step hash (.statement t) = _
    simp [Store.step, running, Store.emitStatement, db, found]
  cases phase with
  | acquireSessionAdvisoryLock =>
      have free : s.locks (hash call.sessionId) = none := by
        simpa [EmitPhase.locked] using free
      obtain ⟨s', ran, done⟩ := fromFind ((s.lock t (hash call.sessionId)).goto t
        (.emit call .findEventById)) rfl (Function.update_self ..)
      refine ⟨3, s', (Transition.System.run_cons ?_).trans ran, done⟩
      show s.step hash (.statement t) = _
      simp [Store.step, running, Store.emitStatement, free]
  | findEventById => exact ⟨2, fromFind s rfl running⟩
  | existing e =>
      obtain rfl : e = event := answers
      exact ⟨1, fromExisting s rfl running⟩
  | returned e | raised e => cases unfinished
  | aborted => cases unfinished
  | _ => exact answers.elim

/-- Stored events are never changed or removed; and once an emit has returned an
event, every other emit with its key answers with that event, whatever its type
and payload, in any status of the session, and changes nothing. -/
theorem emit_idempotent (hash : SessionId → Nat) (s s' : Store)
    (reachable : (system hash).Reachable s) (later : (system hash).Later s s') :
    s.db.events <+: s'.db.events ∧
    ∀ t call event, s.txs t = some (.emit call (.returned event)) →
      event ∈ s'.db.events ∧
      ∀ t' call' phase, s'.txs t' = some (.emit call' phase) →
        call'.sessionId = call.sessionId → call'.eventId = call.eventId →
        call'.payload.byteLength ≤ maxPayloadBytes →
        Answers s t' call' event phase ∧
        (∀ s'', s'.step hash (.statement t') = some s'' → s''.db = s'.db) ∧
        (phase.ended = false →
          phase.locked = true ∨ s'.locks (hash call'.sessionId) = none →
          ∃ n s'', (system hash).run s' (List.replicate n (.statement t')) = some s'' ∧
            s''.txs t' = some (.emit call' (.returned event)) ∧ s''.db = s'.db) := by
  refine ⟨later_extends_events later, fun t call event returned => ?_⟩
  have serialized := serialized_of_reachable reachable
  obtain ⟨owner, id⟩ : event ∈ s.db.eventsOf call.sessionId ∧ event.id = call.eventId :=
    serialized.knows t _ returned
  have owner := (Database.mem_eventsOf.mp owner).2
  obtain ⟨serialized', settled⟩ := (settled_of_returned reachable returned).later serialized later
  refine ⟨settled.stored, fun t' call' phase running session id' fits => ?_⟩
  have session := session.trans owner.symm
  have id' := id'.trans id.symm
  exact ⟨settled.answers t' call' phase running session id' fits,
    fun s'' stepped => settled.statement_db running session id' fits stepped,
    fun unfinished free => settled.returns serialized' running session id' fits unfinished free⟩

/-- A retry with another type and payload, begun once the session is completed. -/
theorem emit_idempotent_retry : ∃ s s' s'' : Store, ∃ n,
    (system fun _ => 0).run empty raceSchedule = some s ∧
    (system fun _ => 0).run s [.statement 2, .statement 1, .statement 1, .statement 1,
      .emitEvent 3 ⟨"s", .uuid4 0, .error, []⟩] = some s' ∧
    (s'.db.sessions "s").map Session.status = some .completed ∧
    (system fun _ => 0).run s' (List.replicate n (.statement 3)) = some s'' ∧
    s''.txs 3 = some (.emit ⟨"s", .uuid4 0, .error, []⟩ (.returned
      ⟨.uuid4 0, "s", 1, .userMessage, [("content", .str "hello")]⟩)) ∧ s''.db = s'.db := by
  obtain ⟨s, s', ran, rest, returned, running, completed, free⟩ : ∃ s s' : Store,
      (system fun _ => 0).run empty raceSchedule = some s ∧
      (system fun _ => 0).run s [.statement 2, .statement 1, .statement 1, .statement 1,
        .emitEvent 3 ⟨"s", .uuid4 0, .error, []⟩] = some s' ∧
      s.txs 0 = some (.emit ⟨"s", .uuid4 0, .userMessage, [("content", .str "hello")]⟩
        (.returned ⟨.uuid4 0, "s", 1, .userMessage, [("content", .str "hello")]⟩)) ∧
      s'.txs 3 = some (.emit ⟨"s", .uuid4 0, .error, []⟩ .acquireSessionAdvisoryLock) ∧
      (s'.db.sessions "s").map Session.status = some .completed ∧ s'.locks 0 = none :=
    ⟨_, _, rfl, rfl, rfl, rfl, rfl, rfl⟩
  obtain ⟨_, answered⟩ := emit_idempotent _ s s'
    ⟨empty, rfl, Transition.System.later_of_run ran⟩ (Transition.System.later_of_run rest)
  obtain ⟨_, _, returns⟩ := (answered 0 _ _ returned).2 3 _ _ running rfl rfl (by decide)
  obtain ⟨n, s'', done⟩ := returns rfl (.inr free)
  exact ⟨s, s', s'', n, ran, rest, completed, done⟩

end Store

end Tename
