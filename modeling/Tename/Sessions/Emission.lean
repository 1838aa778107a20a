import Tename.Sessions.Payloads

/-!
# Emitting any payload

`emit_event` on a payload that may be any dict. It returns an event or raises what its
docstring names exactly if neither serialisation runs out of depth and nothing is inserted
that JSON has not.
-/

namespace Tename

/-- `_encode_payload`. A `RecursionError`, which is a `RuntimeError`, passes. -/
def encodePayload (depth : Nat) (payload : PyDict) : Except Exn (List UInt8) :=
  match (PyData.dict payload).dumps rawStyle depth >>= PyText.encode with
  | .ok bytes => .ok bytes
  | .error e =>
      if e.refuses then
        .error (.validationError s!"event payload is not JSON-serializable: {e.message}")
      else .error (.runtimeError e.message)

/-- What the driver sends for the payload column. -/
def bindPayload (depth : Nat) (payload : PyDict) : Except Exn (List Char) :=
  match (PyData.dict payload).dumps asciiStyle depth with
  | .ok document => .ok document
  | .error e => .error (.other s!"(builtins.{e.typeName}) {e.message}")

/-- The payload column. -/
def columnTakes (document : List Char) : Except Exn Unit :=
  if JsonText.document document then .ok ()
  else .error (.databaseError "invalid input syntax for type json")

/-- The arguments of `emit_event`. -/
structure EmitArguments where
  sessionId : SessionId
  eventId : EventId
  eventType : EventType
  payload : PyDict

/-- What emitting takes from its surroundings: the recursion depth that is left to the check and
to the driver, and the dict that the column gives back of a document. -/
structure EmitSetting where
  depth : Nat
  driverDepth : Nat
  readBack : List Char → Payload

namespace EmitArguments

variable (setting : EmitSetting) (call : EmitArguments)

/-- `_encode_payload` and the size check. -/
def checkPayload : Except Exn Unit := do
  let bytes ← encodePayload setting.depth call.payload
  if bytes.length > maxPayloadBytes then
    throw (.validationError s!"event payload is {bytes.length} bytes; max is {maxPayloadBytes}")

/-- `insert_event_and_bump_sequence` with `last_sequence + 1`. -/
def insertEvent (s : SessionState) (fresh : ∀ e ∈ s.events, e.id ≠ call.eventId) :
    Except Exn (SessionState × Event) := do
  let document ← bindPayload setting.driverDepth call.payload
  columnTakes document
  let payload := setting.readBack document
  return (s.append call.eventId call.eventType payload fresh,
    s.nextEvent call.eventId call.eventType payload)

/-- The body of the transaction, on the session's rows if there are any. -/
def body : Option SessionState → Except Exn (SessionState × Event)
  | none => .error (.notFoundError s!"session {call.sessionId} does not exist")
  | some s =>
      match h : s.events.find? (·.id = call.eventId) with
      | some existing => .ok (s, existing)
      | none =>
          if s.isTerminal then
            .error (.failedPreconditionError
              s!"session {call.sessionId} is in terminal state {s.row.status.value}")
          else call.insertEvent setting s (by simpa using h)

/-- `emit_event`. The transaction commits if its body returns, else it is rolled back. -/
def emitEvent (state : Option SessionState) : Option SessionState × Except Exn Event :=
  match call.checkPayload setting with
  | .error e => (state, .error e)
  | .ok () =>
      match call.body setting state with
      | .ok (s, e) => (some s, .ok e)
      | .error e => (state, .error e)

end EmitArguments

/-- The errors of `emit_event`'s docstring. -/
def Exn.documented : Exn → Bool
  | .validationError _ | .notFoundError _ | .failedPreconditionError _ => true
  | _ => false

namespace EmitArguments

variable {setting : EmitSetting} {call : EmitArguments} {state : Option SessionState}

/-- An event is returned that is stored, or a documented error is raised and nothing has
changed. -/
def Settles (setting : EmitSetting) (call : EmitArguments) (state : Option SessionState)
    (r : Option SessionState × Except Exn Event) : Prop :=
  match r with
  | (state', .ok e) => ∃ s, state = some s ∧
      ((state' = state ∧ e ∈ s.events ∧ e.id = call.eventId) ∨
        ∃ document fresh, bindPayload setting.driverDepth call.payload = .ok document ∧
          e = s.nextEvent call.eventId call.eventType (setting.readBack document) ∧
          state' = some (s.append call.eventId call.eventType (setting.readBack document) fresh))
  | (state', .error e) => e.documented = true ∧ state' = state

/-- The payload passes the check, and the event is new to an active session. -/
def Inserts (setting : EmitSetting) (call : EmitArguments) (state : Option SessionState) : Prop :=
  call.checkPayload setting = .ok () ∧
    ∃ s, state = some s ∧ s.row.status = .active ∧ ∀ e ∈ s.events, e.id ≠ call.eventId

/-- `json.dumps` does not run out of recursion depth, neither in the check nor, where the event
is inserted, in the driver; and what is inserted holds no NaN, no infinity and no U+0000. -/
structure Acceptable (setting : EmitSetting) (call : EmitArguments)
    (state : Option SessionState) : Prop where
  checks : (PyData.dict call.payload).dumps rawStyle setting.depth ≠ .error recursionError
  binds : call.Inserts setting state →
    (PyData.dict call.payload).dumps asciiStyle setting.driverDepth ≠ .error recursionError
  storable : call.Inserts setting state → (PyData.dict call.payload).storable = true

theorem emitEvent_of_error {e : Exn} (raised : call.checkPayload setting = .error e) :
    call.emitEvent setting state = (state, .error e) := by
  rw [emitEvent, raised]

/-- Whatever is raised, nothing has changed. -/
theorem emitEvent_error {e : Exn} (raised : (call.emitEvent setting state).2 = .error e) :
    (call.emitEvent setting state).1 = state := by
  unfold emitEvent at raised ⊢
  split
  · rfl
  · rename_i checked
    rw [checked] at raised
    cases run : call.body setting state with
    | error e => rfl
    | ok r =>
        rw [run] at raised
        cases raised

theorem encode_refuses {t : PyText} {e : PyError} (raised : PyText.encode t = .error e) :
    e.refuses = true := by
  unfold PyText.encode at raised
  split at raised
  · cases raised
  · cases raised
    rfl

theorem encodePayload_error {depth : Nat} {payload : PyDict} {e : Exn}
    (raised : encodePayload depth payload = .error e) : e.documented = true ↔
      (PyData.dict payload).dumps rawStyle depth ≠ .error recursionError := by
  unfold encodePayload at raised
  split at raised
  · cases raised
  · rename_i e' failed
    cases dumped : (PyData.dict payload).dumps rawStyle depth with
    | error e'' =>
        rw [dumped] at failed
        obtain rfl : e'' = e' := Except.error.inj failed
        rcases PyData.dumps_refuses dumped with rfl | refuses
        · rw [if_neg (by decide)] at raised
          cases raised
          exact iff_of_false nofun fun differs => differs rfl
        · rw [if_pos refuses] at raised
          cases raised
          refine iff_of_true rfl fun same => ?_
          rw [Except.error.inj same] at refuses
          exact absurd refuses (by decide)
    | ok text =>
        rw [dumped] at failed
        have refuses := encode_refuses (t := text) failed
        rw [if_pos refuses] at raised
        cases raised
        exact iff_of_true rfl nofun

theorem encodePayload_ok {depth : Nat} {payload : PyDict} {bytes : List UInt8}
    (encoded : encodePayload depth payload = .ok bytes) :
    ∃ t, (PyData.dict payload).dumps rawStyle depth = .ok t := by
  unfold encodePayload at encoded
  split at encoded
  · rename_i bytes' done
    cases dumped : (PyData.dict payload).dumps rawStyle depth with
    | error e =>
        rw [dumped] at done
        cases done
    | ok t => exact ⟨t, rfl⟩
  · split at encoded <;> cases encoded

theorem checkPayload_ok (checked : call.checkPayload setting = .ok ()) :
    ∃ t, (PyData.dict call.payload).dumps rawStyle setting.depth = .ok t := by
  unfold checkPayload at checked
  cases encoded : encodePayload setting.depth call.payload with
  | error e =>
      rw [encoded] at checked
      cases checked
  | ok bytes => exact encodePayload_ok encoded

/-- The check refuses with a documented error, unless it runs out of depth. -/
theorem checkPayload_error {e : Exn} (raised : call.checkPayload setting = .error e) :
    e.documented = true ↔
      (PyData.dict call.payload).dumps rawStyle setting.depth ≠ .error recursionError := by
  unfold checkPayload at raised
  cases encoded : encodePayload setting.depth call.payload with
  | error e' =>
      rw [encoded] at raised
      obtain rfl : e' = e := Except.error.inj raised
      exact encodePayload_error encoded
  | ok bytes =>
      rw [encoded] at raised
      change (if _ then _ else _) = _ at raised
      obtain ⟨t, dumped⟩ := encodePayload_ok encoded
      split at raised
      · cases raised
        exact iff_of_true rfl (by rw [dumped]; nofun)
      · cases raised

variable (setting call) in
/-- What the body of the transaction does on the session's rows. -/
theorem body_cases (s : SessionState) :
    (∃ existing ∈ s.events, existing.id = call.eventId ∧
      call.body setting (some s) = .ok (s, existing)) ∨
    (s.row.status ≠ .active ∧ ∃ m, call.body setting (some s) =
      .error (.failedPreconditionError m)) ∨
    (s.row.status = .active ∧ ∃ fresh, call.body setting (some s) =
      call.insertEvent setting s fresh) := by
  unfold body
  dsimp only
  split
  · rename_i existing found
    have named : existing.id = call.eventId := by simpa using List.find?_some found
    exact .inl ⟨existing, List.mem_of_find?_eq_some found, named, rfl⟩
  · rename_i absent
    split
    · rename_i terminal
      exact .inr (.inl ⟨Session.isTerminal_iff.mp terminal, _, rfl⟩)
    · rename_i live
      refine .inr (.inr ⟨?_, by simpa using absent, rfl⟩)
      simpa [SessionState.isTerminal, Session.isTerminal] using live

/-- What is inserted is stored exactly if the driver has the depth for it and it holds nothing
that JSON has not. -/
theorem insertEvent_ok {s : SessionState} {fresh : ∀ e ∈ s.events, e.id ≠ call.eventId}
    (checked : call.checkPayload setting = .ok ()) :
    (∃ r, call.insertEvent setting s fresh = .ok r) ↔
      (PyData.dict call.payload).dumps asciiStyle setting.driverDepth ≠ .error recursionError ∧
        (PyData.dict call.payload).storable = true := by
  obtain ⟨t, dumped⟩ := checkPayload_ok checked
  unfold insertEvent bindPayload
  cases sent : (PyData.dict call.payload).dumps asciiStyle setting.driverDepth with
  | error e =>
      refine iff_of_false ?_ fun both => both.1 ?_
      · rintro ⟨r, impossible⟩
        cases impossible
      · rw [PyData.dumps_error dumped sent]
  | ok document =>
      have reads := (PyData.dumps_reads sent).document
      change (∃ r, (columnTakes document >>= _) = .ok r) ↔ _
      cases storable : (PyData.dict call.payload).storable with
      | true =>
          have taken : columnTakes document = .ok () := if_pos (reads.trans storable)
          rw [taken]
          exact iff_of_true ⟨_, rfl⟩ ⟨nofun, rfl⟩
      | false =>
          have refused : columnTakes document = .error _ :=
            if_neg (by rw [reads, storable]; decide)
          rw [refused]
          refine iff_of_false ?_ fun both => nomatch both.2
          rintro ⟨r, impossible⟩
          cases impossible

theorem insertEvent_eq {s : SessionState} {fresh : ∀ e ∈ s.events, e.id ≠ call.eventId}
    {r : SessionState × Event} (inserted : call.insertEvent setting s fresh = .ok r) :
    ∃ document, bindPayload setting.driverDepth call.payload = .ok document ∧
      r = (s.append call.eventId call.eventType (setting.readBack document) fresh,
        s.nextEvent call.eventId call.eventType (setting.readBack document)) := by
  unfold insertEvent at inserted
  cases sent : bindPayload setting.driverDepth call.payload with
  | error e =>
      rw [sent] at inserted
      cases inserted
  | ok document =>
      cases taken : columnTakes document with
      | error e =>
          rw [sent] at inserted
          change (columnTakes document >>= _) = _ at inserted
          rw [taken] at inserted
          cases inserted
      | ok _ =>
          rw [sent] at inserted
          change (columnTakes document >>= _) = _ at inserted
          rw [taken] at inserted
          exact ⟨document, rfl, (Except.ok.inj inserted).symm⟩

/-- No error of an insert is documented. -/
theorem insertEvent_error {s : SessionState} {fresh : ∀ e ∈ s.events, e.id ≠ call.eventId}
    {e : Exn} (raised : call.insertEvent setting s fresh = .error e) : e.documented = false := by
  unfold insertEvent bindPayload at raised
  cases sent : (PyData.dict call.payload).dumps asciiStyle setting.driverDepth with
  | error e' =>
      rw [sent] at raised
      cases raised
      rfl
  | ok document =>
      rw [sent] at raised
      change (columnTakes document >>= _) = _ at raised
      cases taken : columnTakes document with
      | error e' =>
          rw [taken] at raised
          obtain rfl : e' = e := Except.error.inj raised
          unfold columnTakes at taken
          split at taken
          · cases taken
          · cases taken
            rfl
      | ok _ =>
          rw [taken] at raised
          cases raised

/-- Whatever is raised, nothing has changed; and an event is returned or a documented error
raised exactly if the payload is acceptable. -/
theorem emitEvent_settles_iff (setting : EmitSetting) (call : EmitArguments)
    (state : Option SessionState) :
    (∀ e, (call.emitEvent setting state).2 = .error e → (call.emitEvent setting state).1 = state) ∧
    (call.Settles setting state (call.emitEvent setting state) ↔
      call.Acceptable setting state) := by
  refine ⟨fun e => emitEvent_error, ?_⟩
  cases checked : call.checkPayload setting with
  | error e =>
      rw [emitEvent_of_error checked]
      have uninserted : ¬call.Inserts setting state := fun inserts => by
        rw [inserts.1] at checked
        cases checked
      constructor
      · rintro ⟨documented, -⟩
        exact ⟨(checkPayload_error checked).mp documented, (uninserted · |>.elim),
          (uninserted · |>.elim)⟩
      · rintro ⟨checks, -, -⟩
        exact ⟨(checkPayload_error checked).mpr checks, rfl⟩
  | ok _ =>
      obtain ⟨t, dumped⟩ := checkPayload_ok checked
      have checks : (PyData.dict call.payload).dumps rawStyle setting.depth ≠
          .error recursionError := by
        rw [dumped]
        exact nofun
      unfold emitEvent
      rw [checked]
      dsimp only
      cases state with
      | none =>
          refine iff_of_true ⟨rfl, rfl⟩ ⟨checks, ?_, ?_⟩
          · rintro ⟨-, s, impossible, -⟩
            cases impossible
          · rintro ⟨-, s, impossible, -⟩
            cases impossible
      | some s =>
          rcases body_cases setting call s with
            ⟨existing, mem, named, ran⟩ | ⟨terminal, m, ran⟩ | ⟨active, fresh, ran⟩
          · have uninserted : ¬call.Inserts setting (some s) := by
              rintro ⟨-, s', same, -, fresh⟩
              cases same
              exact fresh existing mem named
            rw [ran]
            exact iff_of_true ⟨s, rfl, .inl ⟨rfl, mem, named⟩⟩
              ⟨checks, (uninserted · |>.elim), (uninserted · |>.elim)⟩
          · have uninserted : ¬call.Inserts setting (some s) := by
              rintro ⟨-, s', same, active, -⟩
              cases same
              exact terminal active
            rw [ran]
            exact iff_of_true ⟨rfl, rfl⟩
              ⟨checks, (uninserted · |>.elim), (uninserted · |>.elim)⟩
          · have inserts : call.Inserts setting (some s) := ⟨checked, s, rfl, active, fresh⟩
            have stored := @insertEvent_ok setting call s fresh checked
            rw [ran]
            cases inserted : call.insertEvent setting s fresh with
            | error e =>
                refine iff_of_false ?_ fun acceptable => ?_
                · rintro ⟨documented, -⟩
                  rw [insertEvent_error inserted] at documented
                  cases documented
                · obtain ⟨r, impossible⟩ :=
                    stored.mpr ⟨acceptable.binds inserts, acceptable.storable inserts⟩
                  rw [inserted] at impossible
                  cases impossible
            | ok r =>
                obtain ⟨binds, storable⟩ := stored.mp ⟨r, inserted⟩
                obtain ⟨document, sent, rfl⟩ := insertEvent_eq inserted
                exact iff_of_true ⟨s, rfl, .inr ⟨document, fresh, sent, rfl, rfl⟩⟩
                  ⟨checks, fun _ => binds, fun _ => storable⟩

/-- A result with a field `x`. -/
def carrying (value : PyData) : EmitArguments :=
  ⟨"s", .uuid4 0, .toolResult, [(.str [.char 'x'], value)]⟩

/-- A NaN passes the check, and so does a U+0000; the database refuses both. -/
theorem nan_unsettled :
    ¬(carrying (.float .nan)).Settles ⟨9, 9, fun _ => []⟩ (some (.create "s" "agent" []))
      ((carrying (.float .nan)).emitEvent ⟨9, 9, fun _ => []⟩ (some (.create "s" "agent" []))) ∧
    ¬(carrying (.str [.char '\x00'])).Settles ⟨9, 9, fun _ => []⟩
      (some (.create "s" "agent" [])) ((carrying (.str [.char '\x00'])).emitEvent
        ⟨9, 9, fun _ => []⟩ (some (.create "s" "agent" []))) := by
  have refused : ∀ value ∈ [PyData.float .nan, .str [.char '\x00']],
      (carrying value).emitEvent ⟨9, 9, fun _ => []⟩ (some (.create "s" "agent" [])) =
        (some (.create "s" "agent" []),
          .error (.databaseError "invalid input syntax for type json")) := by
    simp only [List.forall_mem_cons, List.not_mem_nil, false_implies, implies_true, and_true]
    exact ⟨rfl, rfl⟩
  constructor
  · rw [refused (.float .nan) (by simp)]
    exact fun settles => nomatch settles.1
  · rw [refused (.str [.char '\x00']) (by simp)]
    exact fun settles => nomatch settles.1

end EmitArguments

end Tename
