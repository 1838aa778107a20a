import Tename.Sessions.Registration

/-!
# Repeating a creation

`create_session` over a database that refuses some documents and some texts. A call whose
request id is a string, or that has none, can be repeated without end. Any other request id is
one for the index but none for the lookup, and the second call fails.
-/

namespace Tename

/-- What is raised for a document that is stored, and for a text that is looked up, if anything. -/
structure Intake where
  document : Payload → Option Exn
  text : String → Option Exn

/-- Postgres takes JSON without U+0000, and text without it. -/
def Intake.postgres : Intake where
  document metadata :=
    if metadata.storable then none
    else some (.databaseError "unsupported Unicode escape sequence")
  text id :=
    if Json.textStorable id then none
    else some (.databaseError "invalid byte sequence for encoding \"UTF8\": 0x00")

/-- What the next statement of the call raises, whatever the table holds. -/
def Creation.refusal (intake : Intake) (cr : Creation) : Option Exn :=
  match cr.phase with
  | .findSessionByRequestId | .retry => cr.metadata.requestId.bind intake.text
  | .insertSession => intake.document cr.metadata
  | _ => none

/-- The label begins no call but this one. -/
def RegistryAction.repeats (call : CreateCall) : RegistryAction → Prop
  | .createSession _ call' => call' = call
  | _ => True

namespace Registry

variable (intake : Intake) (printer : Printer) (agents : AgentId → Bool)

/-- One label, over a database that may refuse. -/
def stepOver (s : Registry) : RegistryAction → Option Registry
  | .statement t drawn =>
      match s.txs t with
      | some cr =>
          match cr.refusal intake with
          | some e => some (s.finish t (cr.at (.raised e)))
          | none => s.createStatement printer agents t cr drawn cr.phase
      | none => none
  | a => s.step printer agents a

/-- All runs of `create_session` calls on an empty table. -/
def systemOver : Transition.System Registry RegistryAction where
  initial s := s = empty
  step := stepOver intake printer agents

/-- The request id is a string, if there is one, and the database takes it and the document. -/
structure Repeatable (merged : Payload) : Prop where
  textual : ∀ value, merged.get? "request_id" = some value → value = .null ∨ ∃ id, value = .str id
  stored : intake.document merged = none
  sought : ∀ id, merged.requestId = some id → intake.text id = none

/-- No call of this kind has raised anything. -/
def Unraised (call : CreateCall) (s : Registry) : Prop :=
  ∀ t cr, s.txs t = some cr → cr.call = call → ∀ e, cr.phase ≠ .raised e

/-- A row is to be found under the request id. -/
def Stores (merged : Payload) (s : Registry) : Prop :=
  ∃ id, merged.requestId = some id ∧ ∃ row ∈ s.rows, row.metadata.requestText printer = some id

/-- The call has not raised, and after a failed insert there is a row to be found. -/
structure Untroubled (merged : Payload) (s : Registry) (cr : Creation) : Prop where
  metadata : cr.metadata = merged
  unraised : ∀ e, cr.phase ≠ .raised e
  found : cr.phase ≠ .retried none
  failed : cr.phase = .rollback ∨ cr.phase = .retry → Stores printer merged s

/-- All calls of this kind are untroubled. -/
def AllUntroubled (call : CreateCall) (merged : Payload) (s : Registry) : Prop :=
  ∀ t cr, s.txs t = some cr → cr.call = call → Untroubled printer merged s cr

variable {intake printer agents} {call : CreateCall} {merged : Payload} {s s' : Registry}
variable {t : TxId} {cr cr' : Creation}

variable (printer) in
theorem requestText_of_textual
    (textual : ∀ value, merged.get? "request_id" = some value →
      value = .null ∨ ∃ id, value = .str id) :
    merged.requestText printer = merged.requestId := by
  unfold Payload.requestText Payload.requestId
  cases given : merged.get? "request_id" with
  | none => rfl
  | some value =>
      rcases textual value given with rfl | ⟨id, rfl⟩
      · rfl
      · rfl

variable (printer) in
/-- Any other request id is one for the index only. -/
theorem indexed_of_not_textual {value : Json} (given : merged.get? "request_id" = some value)
    (null : value ≠ .null) (text : ∀ id, value ≠ .str id) :
    merged.requestId = none ∧ ∃ text, merged.requestText printer = some text := by
  unfold Payload.requestText Payload.requestId
  rw [given]
  cases value with
  | null => exact absurd rfl null
  | str id => exact absurd rfl (text id)
  | _ => exact ⟨rfl, _, rfl⟩

theorem Repeatable.refusal (repeatable : Repeatable intake merged)
    (metadata : cr.metadata = merged) : cr.refusal intake = none := by
  have sought : merged.requestId.bind intake.text = none :=
    Option.bind_eq_none_iff.mpr repeatable.sought
  unfold Creation.refusal
  rw [metadata]
  split
  · exact sought
  · exact sought
  · exact repeatable.stored
  · rfl

theorem Stores.mono (stores : Stores printer merged s) (grows : s.rows ⊆ s'.rows) :
    Stores printer merged s' := by
  obtain ⟨id, tagged, row, mem, same⟩ := stores
  exact ⟨id, tagged, row, grows mem, same⟩

/-- A call moves on, and the others stay as they are. -/
theorem AllUntroubled.move (h : AllUntroubled printer call merged s) (grows : s.rows ⊆ s'.rows)
    (txs : s'.txs = Function.update s.txs t (some cr'))
    (untroubled : cr'.call = call → Untroubled printer merged s' cr') :
    AllUntroubled printer call merged s' := by
  intro t' cr running kind
  rw [txs] at running
  by_cases same : t' = t
  · rw [same, Function.update_self] at running
    obtain rfl := Option.some.inj running
    exact untroubled kind
  · rw [Function.update_of_ne same] at running
    obtain ⟨metadata, unraised, found, failed⟩ := h t' cr running kind
    exact ⟨metadata, unraised, found, fun phase => (failed phase).mono grows⟩

/-- A phase that nothing can go wrong in. -/
theorem Untroubled.at {phase : CreatePhase} (h : Untroubled printer merged s cr)
    (unraised : ∀ e, phase ≠ .raised e) (found : phase ≠ .retried none)
    (failed : phase = .rollback ∨ phase = .retry → Stores printer merged s') :
    Untroubled printer merged s' (cr.at phase) :=
  ⟨h.metadata, unraised, found, failed⟩

/-- A statement of a call troubles neither it nor the others. -/
theorem AllUntroubled.statement (h : AllUntroubled printer call merged s)
    (repeatable : Repeatable intake merged) (agent : agents call.agentId = true)
    (running : s.txs t = some cr)
    (moved : CreateStatement printer agents s t cr cr.phase s') :
    AllUntroubled printer call merged s' := by
  have mine := h t cr running
  have indexed := requestText_of_textual printer repeatable.textual
  generalize now : cr.phase = phase at moved
  cases moved with
  | found tagged stored =>
      refine h.move (List.Subset.refl _) rfl fun kind => ?_
      exact (mine kind).at nofun nofun fun failed => failed.elim nofun nofun
  | missing =>
      refine h.move (List.Subset.refl _) rfl fun kind => ?_
      exact (mine kind).at nofun nofun fun failed => failed.elim nofun nofun
  | returnedExisting =>
      refine h.move (List.Subset.refl _) rfl fun kind => ?_
      exact (mine kind).at nofun nofun fun failed => failed.elim nofun nofun
  | @failed id tagged clash =>
      refine h.move (List.Subset.refl _) rfl fun kind => ?_
      refine (mine kind).at nofun nofun fun _ => ?_
      rw [(mine kind).metadata] at tagged clash
      rcases clash with ⟨row, mem, conflict⟩ | absent
      · have same := (of_decide_eq_true conflict).2
        exact ⟨id, tagged, row, mem, by rw [same, indexed, tagged]⟩
      · have kind : cr.call = call := kind
        rw [kind, agent] at absent
        cases absent
  | @refused m untagged clash =>
      refine h.move (List.Subset.refl _) rfl fun kind => ?_
      rw [(mine kind).metadata] at untagged clash
      rcases clash with ⟨row, mem, conflict⟩ | absent
      · have some' := (of_decide_eq_true conflict).1
        rw [indexed, untagged] at some'
        cases some'
      · have kind : cr.call = call := kind
        rw [kind, agent] at absent
        cases absent
  | inserted waited unique fresh =>
      refine h.move (List.Subset.refl _) rfl fun kind => ?_
      exact (mine kind).at nofun nofun fun failed => failed.elim nofun nofun
  | committed =>
      refine h.move (List.subset_append_left _ _) rfl fun kind => ?_
      exact (mine kind).at nofun nofun fun failed => failed.elim nofun nofun
  | rolledBack =>
      refine h.move (List.Subset.refl _) rfl fun kind => ?_
      exact (mine kind).at nofun nofun fun _ => (mine kind).failed (.inl now)
  | retried =>
      refine h.move (List.Subset.refl _) rfl fun kind => ?_
      refine (mine kind).at nofun ?_ fun failed => failed.elim nofun nofun
      obtain ⟨id, tagged, row, mem, same⟩ := (mine kind).failed (.inr now)
      rw [(mine kind).metadata, tagged]
      intro lost
      have absent : s.findSessionByRequestId printer id = none := CreatePhase.retried.inj lost
      exact List.find?_eq_none.mp absent row mem (decide_eq_true same)
  | returnedRetried =>
      refine h.move (List.Subset.refl _) rfl fun kind => ?_
      exact (mine kind).at nofun nofun fun failed => failed.elim nofun nofun
  | lost =>
      refine h.move (List.Subset.refl _) rfl fun kind => ?_
      exact absurd now (mine kind).found

theorem AllUntroubled.step (h : AllUntroubled printer call merged s)
    (repeatable : Repeatable intake merged) (agent : agents call.agentId = true)
    (merges : call.mergeMetadata printer = .ok merged) {a : RegistryAction}
    (stepped : s.stepOver intake printer agents a = some s') :
    AllUntroubled printer call merged s' := by
  cases a with
  | createSession t call' =>
      replace stepped : s.step printer agents (.createSession t call') = some s' := stepped
      cases step_cases stepped with
      | disagreeing fresh disagree =>
          refine h.move (List.Subset.refl _) rfl fun kind => ?_
          obtain rfl : call' = call := kind
          rw [merges] at disagree
          cases disagree
      | @begun _ _ metadata phase fresh merged' first =>
          refine h.move (List.Subset.refl _) rfl fun kind => ?_
          obtain rfl : call' = call := kind
          rw [merges] at merged'
          refine ⟨(Except.ok.inj merged').symm, ?_, ?_, ?_⟩ <;>
            rcases first with rfl | rfl <;> simp
  | statement t drawn =>
      simp only [stepOver] at stepped
      split at stepped
      · rename_i cr running
        split at stepped
        · rename_i e refused
          obtain rfl := Option.some.inj stepped
          refine h.move (List.Subset.refl _) rfl fun kind => ?_
          rw [repeatable.refusal (h t cr running kind).metadata] at refused
          cases refused
        · exact h.statement repeatable agent running (createStatement_cases stepped)
      · cases stepped
  | abort t =>
      replace stepped : s.step printer agents (.abort t) = some s' := stepped
      cases step_cases stepped with
      | aborted running open' =>
          refine h.move (List.Subset.refl _) rfl fun kind => ?_
          exact (h t _ running kind).at nofun nofun fun failed => failed.elim nofun nofun

/-- A repeatable call never raises, whatever other calls there are. -/
theorem Repeatable.unraised (repeatable : Repeatable intake merged)
    (agent : agents call.agentId = true) (merges : call.mergeMetadata printer = .ok merged)
    (reachable : (systemOver intake printer agents).Reachable s) : Unraised call s := by
  have untroubled : AllUntroubled printer call merged s := by
    refine reachable.invariant ?_ fun u a u' h _ => h.step repeatable agent merges
    rintro _ rfl t cr running
    cases running
  exact fun t cr running kind => (untroubled t cr running kind).unraised

section Raising

/-- The histories in which nobody makes another call. -/
abbrev Repeated (intake : Intake) (printer : Printer) (agents : AgentId → Bool)
    (call : CreateCall) (s : Registry) : Prop :=
  (systemOver intake printer agents).ReachableIf (fun _ a => a.repeats call) s

/-- The phase that a call starts in. -/
def firstPhase (merged : Payload) : CreatePhase :=
  if merged.requestId.isSome then .findSessionByRequestId else .insertSession

theorem goto_self (s : Registry) (t : TxId) (cr : Creation) : (s.goto t cr).txs t = some cr := by
  simp

theorem finish_self (s : Registry) (t : TxId) (cr : Creation) :
    (s.finish t cr).txs t = some cr := by
  simp

theorem Repeated.begin (t : TxId) (repeated : Repeated intake printer agents call s)
    (merges : call.mergeMetadata printer = .ok merged) (fresh : s.txs t = none) :
    Repeated intake printer agents call (s.goto t ⟨call, merged, firstPhase merged⟩) := by
  refine Transition.System.ReachableIf.step (a := .createSession t call) repeated rfl ?_
  change s.step printer agents (.createSession t call) = _
  simp only [Registry.step, fresh, merges, firstPhase]
  cases merged.requestId with
  | none => rfl
  | some id => rfl

/-- Where nothing is raised, nothing is refused. -/
theorem Repeated.taken (repeated : Repeated intake printer agents call s)
    (unraised : ∀ s, Repeated intake printer agents call s → Unraised call s)
    (running : s.txs t = some cr) (kind : cr.call = call) : cr.refusal intake = none := by
  refine Option.eq_none_iff_forall_ne_some.mpr fun e refused => ?_
  have raised : Repeated intake printer agents call (s.finish t (cr.at (.raised e))) := by
    refine Transition.System.ReachableIf.step (a := .statement t "") repeated trivial ?_
    change s.stepOver intake printer agents (.statement t "") = _
    simp only [stepOver, running, refused]
  exact unraised _ raised t _ (finish_self ..) kind e rfl

theorem Repeated.statement (drawn : SessionId)
    (repeated : Repeated intake printer agents call s) (running : s.txs t = some cr)
    (taken : cr.refusal intake = none)
    (moved : s.createStatement printer agents t cr drawn cr.phase = some s') :
    Repeated intake printer agents call s' := by
  refine Transition.System.ReachableIf.step (a := .statement t drawn) repeated trivial ?_
  change s.stepOver intake printer agents (.statement t drawn) = _
  simp only [stepOver, running, taken, moved]

variable (intake agents) in
/-- A call is at its insert, and no other has done anything. -/
theorem repeated_inserting (merges : call.mergeMetadata printer = .ok merged)
    (sought : ∀ id, merged.requestId = some id → intake.text id = none) :
    ∃ s, Repeated intake printer agents call s ∧ s.rows = [] ∧ s.uncommitted = [] ∧
      s.txs = Function.update (fun _ => none) 0 (some ⟨call, merged, .insertSession⟩) := by
  have begun : Repeated intake printer agents call (empty.goto 0 _) :=
    Repeated.begin 0 ⟨empty, rfl, .refl⟩ merges rfl
  cases tagged : merged.requestId with
  | none =>
      have first : firstPhase merged = .insertSession := by simp [firstPhase, tagged]
      rw [first] at begun
      exact ⟨_, begun, rfl, rfl, rfl⟩
  | some id =>
      have first : firstPhase merged = .findSessionByRequestId := by simp [firstPhase, tagged]
      rw [first] at begun
      have running : (empty.goto 0 ⟨call, merged, .findSessionByRequestId⟩).txs 0 =
          some ⟨call, merged, .findSessionByRequestId⟩ := goto_self ..
      have found : Repeated intake printer agents call ((empty.goto 0
          ⟨call, merged, .findSessionByRequestId⟩).goto 0 ⟨call, merged, .insertSession⟩) := by
        refine begun.statement "" running ?_ ?_
        · change merged.requestId.bind intake.text = none
          rw [tagged]
          exact sought id tagged
        · simp only [createStatement, tagged]
          rfl
      exact ⟨_, found, rfl, rfl, Function.update_idem ..⟩

/-- A call has committed its row, and there is no other call. -/
theorem repeated_committed (merges : call.mergeMetadata printer = .ok merged)
    (sought : ∀ id, merged.requestId = some id → intake.text id = none)
    (agent : agents call.agentId = true) (stored : intake.document merged = none) :
    ∃ s, Repeated intake printer agents call s ∧ s.txs 1 = none ∧ s.uncommitted = [] ∧
      ∃ row ∈ s.rows, row.metadata = merged := by
  obtain ⟨s, inserting, rows, uncommitted, txs⟩ :=
    repeated_inserting intake agents merges sought
  have running : s.txs 0 = some ⟨call, merged, .insertSession⟩ := by
    rw [txs]
    exact Function.update_self ..
  generalize written : (⟨call, merged, .insertSession⟩ : Creation) = cr at running
  have moved : s.createStatement printer agents 0 cr "" .insertSession =
      some ((s.insert 0 (cr.row "")).goto 0 (cr.at (.commit (cr.row "")))) := by
    have agent : agents cr.call.agentId = true := by rw [← written]; exact agent
    simp [createStatement, rows, uncommitted, allRows, agent]
  have inserted := inserting.statement "" running (by rw [← written]; exact stored)
    (by rw [← written] at moved ⊢; exact moved)
  have committed := inserted.statement "" (goto_self ..) rfl rfl
  refine ⟨_, committed, ?_, ?_, cr.row "", ?_, ?_⟩
  · simp [txs]
  · simp [finish, uncommitted]
  · rw [← written]
    simp
  · rw [← written]
    rfl

/-- If the call is not repeatable, a history of it alone raises. -/
theorem raised_of_not_repeatable (agent : agents call.agentId = true)
    (merges : call.mergeMetadata printer = .ok merged)
    (unraised : ∀ s, Repeated intake printer agents call s → Unraised call s) :
    Repeatable intake merged := by
  have sought : ∀ id, merged.requestId = some id → intake.text id = none := by
    intro id tagged
    have begun : Repeated intake printer agents call (empty.goto 0 _) :=
      Repeated.begin 0 ⟨empty, rfl, .refl⟩ merges rfl
    have first : firstPhase merged = .findSessionByRequestId := by simp [firstPhase, tagged]
    rw [first] at begun
    have taken := begun.taken unraised (goto_self ..) rfl
    change merged.requestId.bind intake.text = none at taken
    rwa [tagged] at taken
  obtain ⟨s, inserting, rows, uncommitted, txs⟩ :=
    repeated_inserting intake agents merges sought
  have running : s.txs 0 = some ⟨call, merged, .insertSession⟩ := by
    rw [txs]
    exact Function.update_self ..
  have stored : intake.document merged = none := inserting.taken unraised running rfl
  refine ⟨?_, stored, sought⟩
  intro value given
  by_contra other
  rw [not_or, not_exists] at other
  obtain ⟨untagged, text, indexed⟩ :=
    indexed_of_not_textual printer given other.1 other.2
  -- The first call inserts its row, and the second one meets it in the index.
  obtain ⟨s₁, committed, fresh, uncommitted, row, mem, same⟩ :=
    repeated_committed merges sought agent stored
  have first : firstPhase merged = .insertSession := by simp [firstPhase, untagged]
  have begun := committed.begin 1 merges fresh
  rw [first] at begun
  have conflict : conflicts printer merged row = true := by simp [conflicts, same, indexed]
  have met : s₁.rows.any (conflicts printer merged) = true :=
    List.any_eq_true.mpr ⟨row, mem, conflict⟩
  have raised : Repeated intake printer agents call
      ((s₁.goto 1 ⟨call, merged, .insertSession⟩).finish 1 ⟨call, merged, .raised (.runtimeError
        "session insert failed and idempotent retry found no row")⟩) := by
    refine begun.statement "" (goto_self ..) stored ?_
    simp only [createStatement, goto_uncommitted, goto_rows, uncommitted, met, untagged]
    rfl
  exact unraised _ raised 1 _ (finish_self ..) rfl _ rfl

end Raising

/-- A call by an existing agent that the merge accepts never raises, however often and beside
whatever other calls it is repeated, exactly if its request id is a string or there is none, and
the database takes what it stores and looks up. Otherwise its own repetitions raise. -/
theorem repeats_unraised_iff (agent : agents call.agentId = true)
    (merges : call.mergeMetadata printer = .ok merged) :
    ((∀ s, (systemOver intake printer agents).Reachable s → Unraised call s) ↔
      Repeatable intake merged) ∧
    ((∀ s, Repeated intake printer agents call s → Unraised call s) ↔
      Repeatable intake merged) := by
  have never (repeatable : Repeatable intake merged) :
      ∀ s, (systemOver intake printer agents).Reachable s → Unraised call s :=
    fun s => repeatable.unraised agent merges
  have anyway {s : Registry} (repeated : Repeated intake printer agents call s) :
      (systemOver intake printer agents).Reachable s := repeated.mono fun _ _ _ => trivial
  constructor
  · exact ⟨fun unraised => raised_of_not_repeatable agent merges fun s repeated =>
      unraised s (anyway repeated), never⟩
  · exact ⟨raised_of_not_repeatable agent merges, fun repeatable s repeated =>
      never repeatable s (anyway repeated)⟩

section Seven

/-- Postgres prints a number as it is. -/
def sevens : Printer := ⟨fun _ => "7", fun _ => "7"⟩

/-- A call with a number for its request id. -/
def numbered : CreateCall := ⟨"a", some [("request_id", .int 7)], none⟩

/-- The second of two such calls finds no session, and must not insert one. -/
theorem numbered_raises : ∃ s cr, Repeated .postgres sevens (fun _ => true) numbered s ∧
    s.txs 1 = some cr ∧ cr.call = numbered ∧ cr.phase = .raised (.runtimeError
      "session insert failed and idempotent retry found no row") := by
  obtain ⟨s, ran, found⟩ := Option.map_eq_some_iff.mp (show
    ((systemOver .postgres sevens fun _ => true).run empty [.createSession 0 numbered,
      .statement 0 "s0", .statement 0 "", .createSession 1 numbered, .statement 1 "s1"]).map
        (fun s => (s.txs 1).map fun cr => (cr.call, cr.phase)) =
      some (some (numbered, .raised (.runtimeError
        "session insert failed and idempotent retry found no row"))) from rfl)
  obtain ⟨cr, running, ended⟩ := Option.map_eq_some_iff.mp found
  obtain ⟨kind, phase⟩ := Prod.mk.inj ended
  refine ⟨s, cr, ⟨empty, rfl, Transition.System.reaches_of_run ?_ ran⟩, running, kind, phase⟩
  exact ⟨rfl, fun _ _ => ⟨trivial, fun _ _ => ⟨trivial, fun _ _ => ⟨rfl, fun _ _ =>
    ⟨trivial, fun _ _ => trivial⟩⟩⟩⟩⟩

/-- A call with a string for its request id. -/
def named : CreateCall := ⟨"a", some [("request_id", .str "r")], none⟩

/-- It has been repeated, and neither call has raised. -/
theorem repeats_unraised_iff_named : ∃ s, Repeated .postgres sevens (fun _ => true) named s ∧
    (s.txs 1).map (fun cr => cr.call) = some named ∧ Unraised named s := by
  obtain ⟨s, ran, again⟩ := Option.map_eq_some_iff.mp (show
    ((systemOver .postgres sevens fun _ => true).run empty [.createSession 0 named,
      .statement 0 "", .statement 0 "s0", .statement 0 "", .createSession 1 named,
      .statement 1 ""]).map (fun s => (s.txs 1).map fun cr => cr.call) = some (some named)
      from rfl)
  have repeated : Repeated .postgres sevens (fun _ => true) named s := by
    refine ⟨empty, rfl, Transition.System.reaches_of_run ?_ ran⟩
    exact ⟨rfl, fun _ _ => ⟨trivial, fun _ _ => ⟨trivial, fun _ _ => ⟨trivial, fun _ _ =>
      ⟨rfl, fun _ _ => ⟨trivial, fun _ _ => trivial⟩⟩⟩⟩⟩⟩
  have repeatable : Repeatable .postgres [("request_id", .str "r")] := by
    refine ⟨fun value given => .inr ⟨"r", ?_⟩, rfl, fun id tagged => ?_⟩
    · exact (Option.some.inj given).symm
    · obtain rfl : "r" = id := Option.some.inj tagged
      rfl
  exact ⟨s, repeated, again, (repeats_unraised_iff rfl rfl).2.mpr repeatable s repeated⟩

end Seven

end Registry

end Tename
