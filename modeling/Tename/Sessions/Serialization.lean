import Tename.Sessions.Transactions

/-!
# Concurrent emitters assign dense sequences

`Serialized` ties each running `emit_event` transaction to the database. From
the advisory lock to its end a transaction holds the lock of its session, and
what it has read of that session is still true: nobody else has committed an
event of the session since. Together with the density of the committed
sequences this makes the next insert land exactly one past the last, on an id
that is not taken.

Every statement keeps `Serialized`; the properties of the committed states and
the absence of the integrity error are read off from it.
-/

namespace Tename

namespace Database

/-- The committed events of a session carry exactly `1 … last_sequence`, in
order, under distinct ids. -/
structure Dense (db : Database) (sid : SessionId) : Prop where
  sequences : (db.eventsOf sid).map Event.sequence = List.range' 1 (db.lastSequence sid)
  distinct : ((db.eventsOf sid).map Event.id).Nodup

/-- What an `emit_event` call knows of the database at each of its phases. -/
def Sees (db : Database) (call : EmitCall) : EmitPhase → Prop
  | .existing event | .returned event =>
      event ∈ db.eventsOf call.sessionId ∧ event.id = call.eventId
  | .loadSessionForEmit => db.findEventById call.sessionId call.eventId = none
  | .insertEvent newSequence =>
      db.findEventById call.sessionId call.eventId = none ∧ db.sessions call.sessionId ≠ none ∧
        newSequence = db.lastSequence call.sessionId + 1
  | .bumpSequence event | .commit event =>
      db.findEventById call.sessionId call.eventId = none ∧ db.sessions call.sessionId ≠ none ∧
        event = call.event (db.lastSequence call.sessionId + 1)
  | .raised error => ∀ m, error ≠ .runtimeError m
  | .acquireSessionAdvisoryLock | .findEventById | .aborted => True

variable {db db' : Database} {sid : SessionId} {call : EmitCall} {e : Event}

/-- Knowledge survives a change that only adds events, and adds none to the
session while its lock is held. -/
theorem Sees.frame {phase : EmitPhase} (h : db.Sees call phase)
    (grows : ∀ e ∈ db.eventsOf call.sessionId, e ∈ db'.eventsOf call.sessionId)
    (same : phase.locked = true → db'.eventsOf call.sessionId = db.eventsOf call.sessionId ∧
      db'.lastSequence call.sessionId = db.lastSequence call.sessionId)
    (kept : db.sessions call.sessionId ≠ none → db'.sessions call.sessionId ≠ none) :
    db'.Sees call phase := by
  cases phase with
  | acquireSessionAdvisoryLock => trivial
  | findEventById => trivial
  | existing event => exact ⟨grows _ h.1, h.2⟩
  | loadSessionForEmit => simpa [Sees, findEventById, (same rfl).1] using h
  | insertEvent n =>
      obtain ⟨absent, present, rfl⟩ := h
      exact ⟨by simpa [findEventById, (same rfl).1] using absent, kept present,
        by rw [(same rfl).2]⟩
  | bumpSequence event =>
      obtain ⟨absent, present, rfl⟩ := h
      exact ⟨by simpa [findEventById, (same rfl).1] using absent, kept present,
        by rw [(same rfl).2]⟩
  | commit event =>
      obtain ⟨absent, present, rfl⟩ := h
      exact ⟨by simpa [findEventById, (same rfl).1] using absent, kept present,
        by rw [(same rfl).2]⟩
  | returned event => exact ⟨grows _ h.1, h.2⟩
  | raised error => exact h
  | aborted => trivial

theorem Dense.sequence_le (h : db.Dense sid) (mem : e ∈ db.eventsOf sid) :
    e.sequence ≤ db.lastSequence sid := by
  have listed : e.sequence ∈ List.range' 1 (db.lastSequence sid) :=
    h.sequences ▸ List.mem_map_of_mem mem
  have bound := List.mem_range'_1.mp listed
  omega

/-- Committing the next event of a session keeps the session dense. -/
theorem Dense.append (h : db.Dense e.sessionId) (absent : db.findEventById e.sessionId e.id = none)
    (present : db.sessions e.sessionId ≠ none)
    (next : e.sequence = db.lastSequence e.sessionId + 1) :
      (db.appendEvent e).Dense e.sessionId := by
  obtain ⟨row, present⟩ := Option.ne_none_iff_exists'.mp present
  constructor
  · rw [eventsOf_appendEvent_self, lastSequence_appendEvent_self present, List.map_append,
      h.sequences, next, List.range'_1_concat]
    simp [next, Nat.add_comm]
  · rw [eventsOf_appendEvent_self, List.map_append]
    refine List.nodup_append.mpr ⟨h.distinct, by simp, ?_⟩
    rintro _ taken _ fresh rfl
    obtain ⟨f, mem, same⟩ := List.mem_map.mp taken
    exact findEventById_eq_none.mp absent f mem (same.trans (by simpa using fresh))

theorem Dense.append_ne (h : db.Dense sid) (other : e.sessionId ≠ sid) :
    (db.appendEvent e).Dense sid := by
  constructor
  · rw [eventsOf_appendEvent_ne other, lastSequence_appendEvent_ne other.symm]
    exact h.sequences
  · rw [eventsOf_appendEvent_ne other]
    exact h.distinct

/-- The unique constraints admit the row a locked emitter is about to insert. -/
theorem Dense.not_conflicts (h : db.Dense call.sessionId)
    (absent : db.findEventById call.sessionId call.eventId = none) (mem : e ∈ db.events) :
    conflicts (call.event (db.lastSequence call.sessionId + 1)) e = false := by
  refine decide_eq_false ?_
  rintro ⟨same, taken | taken⟩
  · exact findEventById_eq_none.mp absent e (mem_eventsOf.mpr ⟨mem, same⟩) taken
  · have bound := h.sequence_le (mem_eventsOf.mpr ⟨mem, same⟩)
    have past : e.sequence = db.lastSequence call.sessionId + 1 := taken
    omega

end Database

/-- What a call of either kind knows of the database. -/
def Tx.Knows (db : Database) : Tx → Prop
  | .emit call phase => db.Sees call phase
  | .mark sid .updateStatus | .mark sid .commit => db.sessions sid ≠ none
  | .mark _ _ => True

/-- `Sees.frame` for calls of both kinds. -/
theorem Tx.Knows.frame {db db' : Database} {tx : Tx} (h : tx.Knows db)
    (grows : ∀ sid, ∀ e ∈ db.eventsOf sid, e ∈ db'.eventsOf sid)
    (same : ∀ call phase, tx = .emit call phase → phase.locked = true →
      db'.eventsOf call.sessionId = db.eventsOf call.sessionId ∧
        db'.lastSequence call.sessionId = db.lastSequence call.sessionId)
    (kept : ∀ sid, db.sessions sid ≠ none → db'.sessions sid ≠ none) : tx.Knows db' := by
  cases tx with
  | emit call phase => exact Database.Sees.frame h (grows _) (same call phase rfl) (kept _)
  | mark sid phase =>
      cases phase with
      | updateStatus | commit => exact kept sid h
      | _ => trivial

namespace Store

variable (hash : SessionId → Nat)

/-- An emitter between lock and end holds the lock of its session. -/
def Guards (s : Store) (t : TxId) : Tx → Prop
  | .emit call phase => phase.locked = true → s.locks (hash call.sessionId) = some t
  | .mark _ _ => True

/-- The lock of its session is held by every transaction between lock and end,
and what each has read is still true. -/
structure Serialized (s : Store) : Prop where
  dense : ∀ sid, s.db.Dense sid
  guards : ∀ t tx, s.txs t = some tx → s.Guards hash t tx
  knows : ∀ t tx, s.txs t = some tx → tx.Knows s.db

variable {hash} {s s' : Store} {t : TxId} {tx : Tx}

/-- Two emitters of one session are not both inside the lock. -/
theorem Serialized.exclusive (h : s.Serialized hash) {t t' : TxId} {call call' : EmitCall}
    {phase phase' : EmitPhase} (running : s.txs t = some (.emit call phase))
    (running' : s.txs t' = some (.emit call' phase')) (locked : phase.locked = true)
    (locked' : phase'.locked = true) (same : call.sessionId = call'.sessionId) : t = t' := by
  have held := h.guards t _ running locked
  have held' := h.guards t' _ running' locked'
  rw [same, held'] at held
  exact (Option.some.inj held).symm

theorem serialized_empty : Serialized hash empty where
  dense sid := ⟨rfl, List.nodup_nil⟩
  guards t tx running := by cases running
  knows t tx running := by cases running

/-- A step of `t` that leaves the database alone: only `t`'s own phase is to be
checked, provided the locks of the others stay. -/
theorem Serialized.move (h : s.Serialized hash) (db : s'.db = s.db)
    (txs : s'.txs = Function.update s.txs t (some tx))
    (locks : ∀ key t', t' ≠ t → s.locks key = some t' → s'.locks key = some t')
    (guards : s'.Guards hash t tx) (knows : tx.Knows s.db) : s'.Serialized hash where
  dense sid := db ▸ h.dense sid
  guards t' tx' running := by
    by_cases same : t' = t
    · subst same
      obtain rfl : tx = tx' := by simpa [txs] using running
      exact guards
    · have before := h.guards t' tx' (by simpa [txs, same] using running)
      cases tx' with
      | emit call phase => exact fun locked => locks _ t' same (before locked)
      | mark sid phase => trivial
  knows t' tx' running := by
    rw [db]
    by_cases same : t' = t
    · subst same
      obtain rfl : tx = tx' := by simpa [txs] using running
      exact knows
    · exact h.knows t' tx' (by simpa [txs, same] using running)

theorem Serialized.goto (h : s.Serialized hash) (guards : s.Guards hash t tx)
    (knows : tx.Knows s.db) : (s.goto t tx).Serialized hash := by
  refine h.move rfl rfl (fun _ _ _ held => held) ?_ knows
  cases tx with
  | emit call phase => exact guards
  | mark sid phase => trivial

/-- An ended transaction has no lock to hold. -/
theorem guards_of_ended (ended : tx.ended = true) : s.Guards hash t tx := by
  cases tx with
  | emit call phase =>
      intro locked
      cases phase <;> simp [Tx.ended, EmitPhase.ended, EmitPhase.locked] at ended locked
  | mark sid phase => trivial

/-- The end of a transaction that leaves the database alone. -/
theorem Serialized.finish (h : s.Serialized hash) (ended : tx.ended = true)
    (knows : tx.Knows s.db) : (s.finish t tx).Serialized hash :=
  h.move rfl rfl (fun _ _ other held => finish_locks_of_ne _ _ _ other held)
    (guards_of_ended ended) knows

/-- A change of the database followed by the end of `t`: releasing locks
disturbs nobody, so the knowledge of each transaction is all there is to check. -/
theorem Serialized.commit (h : s.Serialized hash) {db : Database} (ended : tx.ended = true)
    (dense : ∀ sid, db.Dense sid) (own : tx.Knows db)
    (others : ∀ t' tx', t' ≠ t → s.txs t' = some tx' → tx'.Knows db) :
    ((s.withDb db).finish t tx).Serialized hash where
  dense := dense
  guards t' tx' running := by
    by_cases same : t' = t
    · subst same
      obtain rfl : tx = tx' := by simpa using running
      exact guards_of_ended ended
    · have before := h.guards t' tx' (by simpa [same] using running)
      cases tx' with
      | emit call phase => exact fun locked => finish_locks_of_ne _ _ _ same (before locked)
      | mark sid phase => trivial
  knows t' tx' running := by
    by_cases same : t' = t
    · subst same
      obtain rfl : tx = tx' := by simpa using running
      exact own
    · exact others t' tx' same (by simpa [same] using running)

/-- The commit of a new event. -/
theorem Serialized.append (h : s.Serialized hash) {call : EmitCall} {event : Event}
    (running : s.txs t = some (.emit call (.commit event))) :
    ((s.withDb (s.db.appendEvent event)).finish t (.emit call (.returned event))).Serialized
      hash := by
  obtain ⟨absent, present, rfl⟩ := h.knows t _ running
  refine h.commit rfl ?_ ?_ ?_
  · intro sid
    by_cases same : call.sessionId = sid
    · exact same ▸ (h.dense call.sessionId).append (e := call.event _) absent present rfl
    · exact (h.dense sid).append_ne same
  · exact ⟨Database.mem_eventsOf.mpr ⟨by simp [Database.appendEvent], rfl⟩, rfl⟩
  · intro t' tx' other running'
    refine (h.knows t' tx' running').frame ?_ ?_ fun _ => Database.appendEvent_ne_none
    · intro sid e mem
      rw [Database.eventsOf_appendEvent]
      exact List.mem_append_left _ mem
    · rintro call' phase' rfl locked
      -- Another emitter inside the lock is one of another session.
      have apart : call.sessionId ≠ call'.sessionId := fun same =>
        other (h.exclusive running running' rfl locked same).symm
      exact ⟨Database.eventsOf_appendEvent_ne apart,
        Database.lastSequence_appendEvent_ne apart.symm⟩

theorem Serialized.emitStatement (h : s.Serialized hash) {call : EmitCall} {phase : EmitPhase}
    (running : s.txs t = some (.emit call phase)) (moved : EmitStatement hash s t call phase s') :
    s'.Serialized hash := by
  have knows := h.knows t _ running
  have guards := h.guards t _ running
  cases moved with
  | acquired free =>
      refine h.move rfl rfl ?_ (fun _ => by simp [lock]) trivial
      intro key t' _ held
      have other : key ≠ hash call.sessionId := by
        rintro rfl
        rw [free] at held
        cases held
      simpa [lock, other] using held
  | found stored => exact h.goto guards (Database.mem_of_findEventById stored)
  | missing absent => exact h.goto guards absent
  | returnedExisting => exact h.finish rfl knows
  | notFound absent =>
      refine h.finish rfl ?_
      rintro m ⟨⟩
  | terminal present ended =>
      refine h.finish rfl ?_
      rintro m ⟨⟩
  | loaded present active =>
      exact h.goto guards ⟨knows, by simp [present], by simp [Database.lastSequence, present]⟩
  | violated clash =>
      obtain ⟨absent, _, rfl⟩ := knows
      obtain ⟨f, mem, clash⟩ := clash
      rw [(h.dense call.sessionId).not_conflicts absent mem] at clash
      cases clash
  | inserted =>
      obtain ⟨absent, present, rfl⟩ := knows
      exact h.move rfl rfl (fun _ _ _ held => held) guards ⟨absent, present, rfl⟩
  | bumped free => exact h.move rfl rfl (fun _ _ _ held => held) guards knows
  | committed => exact h.append running

theorem Serialized.markStatement (h : s.Serialized hash) {sid : SessionId} {phase : MarkPhase}
    (running : s.txs t = some (.mark sid phase)) (moved : MarkStatement s t sid phase s') :
    s'.Serialized hash := by
  have knows := h.knows t _ running
  cases moved with
  | notFound absent => exact h.finish rfl trivial
  | terminal present ended => exact h.goto trivial trivial
  | active present active => exact h.goto trivial (by simp [Tx.Knows, present])
  | returnedUnchanged => exact h.finish rfl trivial
  | updated free => exact h.move rfl rfl (fun _ _ _ held => held) trivial knows
  | committed =>
      refine h.commit rfl (fun sid' => ?_) trivial (fun t' tx' _ running' => ?_)
      · exact ⟨by simpa using (h.dense sid').sequences, by simpa using (h.dense sid').distinct⟩
      · exact (h.knows t' tx' running').frame (by simp) (by simp)
          fun _ => Database.completeSession_ne_none

/-- One label, whichever transaction it moves, keeps the emitters serialized. -/
theorem Serialized.step {a : StoreAction} (h : s.Serialized hash)
    (stepped : s.step hash a = some s') : s'.Serialized hash := by
  cases step_cases stepped with
  | @created sid agentId metadata fresh =>
      have last : ∀ sid', (s.db.insertSession sid agentId metadata).lastSequence sid' =
          s.db.lastSequence sid' := fun _ => Database.lastSequence_insertSession fresh
      refine ⟨fun sid' => ⟨?_, (h.dense sid').distinct⟩, h.guards, fun t' tx running => ?_⟩
      · simpa [last sid'] using (h.dense sid').sequences
      · exact (h.knows t' tx running).frame (by simp) (by simp [last])
          fun _ => Database.insertSession_ne_none
  | refused fresh oversized =>
      refine h.goto (by simp [Guards, EmitPhase.locked]) ?_
      rintro m ⟨⟩
  | begun fresh fits => exact h.goto (by simp [Guards, EmitPhase.locked]) trivial
  | marking fresh => exact h.goto trivial trivial
  | emit running moved => exact h.emitStatement running moved
  | mark running moved => exact h.markStatement running moved
  | @aborted t tx running open' =>
      cases tx with
      | emit call phase => exact h.finish rfl trivial
      | mark sid phase => exact h.finish rfl trivial

theorem serialized_of_reachable (h : (system hash).Reachable s) : s.Serialized hash :=
  h.invariant (fun _ initial => initial ▸ serialized_empty)
    fun _ _ _ holds _ stepped => holds.step stepped

/-- Every reachable committed state is dense in every session, and no call ends
in the error for a violated unique constraint. -/
theorem emitters_serialized (hash : SessionId → Nat) (s : Store)
    (reachable : (system hash).Reachable s) :
    (∀ sid, (s.db.eventsOf sid).map Event.sequence = List.range' 1 (s.db.lastSequence sid) ∧
      ((s.db.eventsOf sid).map Event.id).Nodup) ∧
    ∀ t call m, s.txs t ≠ some (.emit call (.raised (.runtimeError m))) := by
  have serialized := serialized_of_reachable reachable
  refine ⟨fun sid => ⟨(serialized.dense sid).sequences, (serialized.dense sid).distinct⟩, ?_⟩
  intro t call m raised
  exact serialized.knows t _ raised m rfl

/-- Two emitters and a completion race on one session. The first emitter's
commit falls between the two statements of the completion, and the second one
waits for the lock and has passed its checks when the completion commits. -/
def raceSchedule : List StoreAction :=
  [.createSession "s" "a" [],
    .emitEvent 0 ⟨"s", .uuid4 0, .userMessage, [("content", .str "hello")]⟩,
    .emitEvent 1 ⟨"s", .uuid4 1, .userMessage, [("content", .str "again")]⟩,
    .statement 0, .statement 0, .statement 0, .markComplete 2 "s", .statement 2, .statement 0,
    .statement 0, .statement 0, .statement 2, .statement 1, .statement 1, .statement 1]

theorem emitters_serialized_race : ∃ s, (system fun _ => 0).run empty raceSchedule = some s ∧
    (∀ sid, (s.db.eventsOf sid).map Event.sequence = List.range' 1 (s.db.lastSequence sid) ∧
      ((s.db.eventsOf sid).map Event.id).Nodup) ∧
    ∀ t call m, s.txs t ≠ some (.emit call (.raised (.runtimeError m))) := by
  obtain ⟨s, ran⟩ := Option.isSome_iff_exists.mp
    (show ((system fun _ => 0).run empty raceSchedule).isSome = true by decide)
  exact ⟨s, ran, emitters_serialized _ s ⟨empty, rfl, Transition.System.later_of_run ran⟩⟩

end Store

end Tename
