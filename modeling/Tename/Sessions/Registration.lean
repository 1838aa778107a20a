import Mathlib.Data.Fintype.EquivFin
import Mathlib.Data.List.Pairwise
import Tename.Sessions.Creation

/-!
# One session per request id

The unique index keeps the request ids of all rows apart, committed or not, so a
call that finds its id taken, before its insert or after a failed one, finds the
one row that has it. The invariant says of every call what it has in hand: a row
of the table with its own request id, or a row that it alone has inserted.
-/

namespace Tename

/-- The request id in a call's metadata is a string, or there is none. -/
def CreateCall.textual (call : CreateCall) : Bool :=
  match (call.metadata.getD []).get? "request_id" with
  | none | some .null | some (.str _) => true
  | _ => false

theorem CreateCall.cases_of_textual {call : CreateCall} (h : call.textual = true) {value : Json}
    (given : (call.metadata.getD []).get? "request_id" = some value) :
    value = .null ∨ ∃ id, value = .str id := by
  rw [textual, given] at h
  cases value with
  | null => exact .inl rfl
  | str id => exact .inr ⟨id, rfl⟩
  | _ => cases h

/-- In the metadata of such a call, the index has the id that the code looks up. -/
theorem CreateCall.requestText_merged {printer : Printer} {call : CreateCall} {merged : Payload}
    (textual : call.textual = true) (h : call.mergeMetadata printer = .ok merged) :
    merged.requestText printer = merged.requestId := by
  have plain : ∀ value, merged.get? "request_id" = some value →
      value = .null ∨ ∃ id, value = .str id := by
    simp only [mergeMetadata] at h
    split at h
    · obtain rfl := Except.ok.inj h
      exact fun value => cases_of_textual textual
    · rename_i id _
      split at h
      · cases h
      · obtain rfl := Except.ok.inj h
        intro value given
        rw [Payload.get?_set, if_pos rfl] at given
        exact .inr ⟨id, (Option.some.inj given).symm⟩
  unfold Payload.requestText Payload.requestId
  cases given : merged.get? "request_id" with
  | none => rfl
  | some value =>
      rcases plain value given with rfl | ⟨id, rfl⟩
      · rfl
      · rfl

/-- The calls of the histories: agents exist, and request ids are strings. -/
def RegistryAction.proper (agents : AgentId → Bool) : RegistryAction → Bool
  | .createSession _ call => agents call.agentId && call.textual
  | _ => true

/-- A call that got past the merge. -/
structure Creation.Proper (printer : Printer) (agents : AgentId → Bool) (cr : Creation) : Prop where
  merged : cr.call.mergeMetadata printer = .ok cr.metadata
  indexed : cr.metadata.requestText printer = cr.metadata.requestId
  agent : agents cr.call.agentId = true

/-- The row that the call has inserted. -/
def CreatePhase.inserted : CreatePhase → Option Session
  | .commit row | .created row => some row
  | _ => none

namespace Registry

variable (printer : Printer) (agents : AgentId → Bool)

/-- The row is of the table and has the call's request id. -/
structure Finds (s : Registry) (cr : Creation) (row : Session) : Prop where
  committed : row ∈ s.rows
  tagged : cr.metadata.requestId ≠ none
  same : row.metadata.requestText printer = cr.metadata.requestId

/-- What a call has in hand, by phase. -/
def Holds (s : Registry) (t : TxId) (cr : Creation) : CreatePhase → Prop
  | .commit row => (t, row) ∈ s.uncommitted ∧ row = cr.row row.id
  | .created row => row ∈ s.rows ∧ row = cr.row row.id
  | .existing row | .returned row | .retried (some row) => s.Finds printer cr row
  | .rollback | .retry => ∃ row, s.Finds printer cr row
  | .retried none => False
  | .findSessionByRequestId | .insertSession | .raised _ | .aborted => True

/-- What is known of a call. -/
structure Knows (s : Registry) (t : TxId) (cr : Creation) : Prop where
  refused : ∀ e, cr.phase = .raised e → cr.call.mergeMetadata printer = .error e
  proper : (∀ e, cr.phase ≠ .raised e) → cr.Proper printer agents
  holds : s.Holds printer t cr cr.phase

/-- The invariant of the table and its calls. -/
structure Consistent (s : Registry) : Prop where
  ids : (s.allRows.map Session.id).Nodup
  requests : (s.allRows.filterMap (·.metadata.requestText printer)).Nodup
  /-- Uncommitted rows belong to the calls that are about to commit them. -/
  mine : ∀ p ∈ s.uncommitted, ∃ cr, s.txs p.1 = some cr ∧ cr.phase = .commit p.2
  knows : ∀ t cr, s.txs t = some cr → s.Knows printer agents t cr
  apart : ∀ t t' cr cr' row row', t ≠ t' → s.txs t = some cr → s.txs t' = some cr' →
    cr.phase.inserted = some row → cr'.phase.inserted = some row' → row.id ≠ row'.id
  /-- Each committed row was inserted by a call that has returned it. -/
  owned : ∀ row ∈ s.rows, ∃ t cr, s.txs t = some cr ∧ cr.phase = .created row

variable {printer agents} {s s' : Registry} {t : TxId} {cr cr' : Creation} {row : Session}

theorem consistent_empty : Consistent printer agents empty where
  ids := List.nodup_nil
  requests := List.nodup_nil
  mine := by simp [empty]
  knows t cr running := by cases running
  apart t t' cr cr' row row' _ running := by cases running
  owned := by simp [empty]

/-- What a call has in hand stays, as long as rows are added only and its own insert stays. -/
theorem Holds.frame {phase : CreatePhase} (h : s.Holds printer t cr phase)
    (grows : s.rows ⊆ s'.rows) (kept : ∀ row, phase = .commit row → (t, row) ∈ s'.uncommitted) :
    s'.Holds printer t cr phase := by
  have finds : ∀ {row}, s.Finds printer cr row → s'.Finds printer cr row :=
    fun h => ⟨grows h.committed, h.tagged, h.same⟩
  cases phase with
  | commit row => exact ⟨kept row rfl, h.2⟩
  | created row => exact ⟨grows h.1, h.2⟩
  | existing row => exact finds h
  | returned row => exact finds h
  | retried row =>
      cases row with
      | some row => exact finds h
      | none => exact h
  | rollback =>
      obtain ⟨row, h⟩ := h
      exact ⟨row, finds h⟩
  | retry =>
      obtain ⟨row, h⟩ := h
      exact ⟨row, finds h⟩
  | findSessionByRequestId => trivial
  | insertSession => trivial
  | raised e => trivial
  | aborted => trivial

theorem Knows.frame (h : s.Knows printer agents t cr) (grows : s.rows ⊆ s'.rows)
    (kept : ∀ row, (t, row) ∈ s.uncommitted → (t, row) ∈ s'.uncommitted) :
    s'.Knows printer agents t cr := by
  refine ⟨h.refused, h.proper, h.holds.frame grows fun row phase => kept row ?_⟩
  have holds := h.holds
  rw [phase] at holds
  exact holds.1

/-- An inserted row is in the table, committed or not. -/
theorem Knows.inserted_mem (h : s.Knows printer agents t cr)
    (inserted : cr.phase.inserted = some row) :
    row ∈ s.allRows := by
  have holds := h.holds
  cases phase : cr.phase with
  | commit row' =>
      rw [phase] at holds inserted
      obtain rfl := Option.some.inj inserted
      exact List.mem_append_right _ (List.mem_map_of_mem holds.1)
  | created row' =>
      rw [phase] at holds inserted
      obtain rfl := Option.some.inj inserted
      exact List.mem_append_left _ holds.1
  | _ => rw [phase] at inserted; cases inserted

/-- A call before its insert has no rows in the table. -/
theorem Consistent.no_rows (h : s.Consistent printer agents) (running : s.txs t = some cr)
    (other : ∀ row, cr.phase ≠ .commit row) : ∀ p ∈ s.uncommitted, p.1 ≠ t := by
  rintro p mem rfl
  obtain ⟨cr', running', phase⟩ := h.mine p mem
  obtain rfl := Option.some.inj (running.symm.trans running')
  exact other p.2 phase

/-- A call moves on. It leaves the committed rows alone, its own insert may go. -/
theorem Consistent.move (h : s.Consistent printer agents) (rows : s'.rows = s.rows)
    (txs : s'.txs = Function.update s.txs t (some cr'))
    (uncommitted : ∀ p, p ∈ s'.uncommitted ↔ p ∈ s.uncommitted ∧ p.1 ≠ t)
    (less : s'.allRows.Sublist s.allRows)
    (before : ∀ row cr, s.txs t = some cr → cr.phase ≠ .created row)
    (knows : s.Knows printer agents t cr') (none' : cr'.phase.inserted = none) :
    s'.Consistent printer agents where
  ids := h.ids.sublist (less.map _)
  requests := h.requests.sublist (less.filterMap _)
  mine p mem := by
    obtain ⟨mem, other⟩ := (uncommitted p).mp mem
    obtain ⟨cr, running, phase⟩ := h.mine p mem
    exact ⟨cr, by rw [txs, Function.update_of_ne other, running], phase⟩
  knows t' cr running := by
    by_cases same : t' = t
    · subst same
      rw [txs, Function.update_self] at running
      obtain rfl := Option.some.inj running
      refine ⟨knows.refused, knows.proper, knows.holds.frame ?_ fun row phase => ?_⟩
      · rw [rows]
        exact List.Subset.refl _
      · rw [phase] at none'
        cases none'
    · rw [txs, Function.update_of_ne same] at running
      refine (h.knows t' cr running).frame (by rw [rows]; exact List.Subset.refl _)
        fun row mem => ?_
      exact (uncommitted _).mpr ⟨mem, same⟩
  apart t₁ t₂ cr₁ cr₂ row₁ row₂ other running₁ running₂ inserted₁ inserted₂ := by
    rw [txs] at running₁ running₂
    by_cases same₁ : t₁ = t
    · rw [same₁, Function.update_self] at running₁
      obtain rfl := Option.some.inj running₁
      rw [none'] at inserted₁
      cases inserted₁
    · by_cases same₂ : t₂ = t
      · rw [same₂, Function.update_self] at running₂
        obtain rfl := Option.some.inj running₂
        rw [none'] at inserted₂
        cases inserted₂
      · rw [Function.update_of_ne same₁] at running₁
        rw [Function.update_of_ne same₂] at running₂
        exact h.apart t₁ t₂ cr₁ cr₂ row₁ row₂ other running₁ running₂ inserted₁ inserted₂
  owned row mem := by
    rw [rows] at mem
    obtain ⟨t', cr, running, phase⟩ := h.owned row mem
    have other : t' ≠ t := by
      rintro rfl
      exact before row cr running phase
    exact ⟨t', cr, by rw [txs, Function.update_of_ne other, running], phase⟩

/-- `Consistent.move` for a call that leaves the rows alone. -/
theorem Consistent.goto (h : s.Consistent printer agents)
    (before : ∀ cr, s.txs t = some cr → cr.phase.inserted = none)
    (knows : s.Knows printer agents t cr') (none' : cr'.phase.inserted = none) :
    (s.goto t cr').Consistent printer agents := by
  refine h.move rfl rfl (fun p => ⟨fun mem => ⟨mem, ?_⟩, And.left⟩) (List.Sublist.refl _) ?_ knows
    none'
  · rintro rfl
    obtain ⟨cr, running, phase⟩ := h.mine p mem
    have := before cr running
    rw [phase] at this
    cases this
  · intro row cr running phase
    have := before cr running
    rw [phase] at this
    cases this

/-- The end of a call that leaves the committed rows alone. -/
theorem Consistent.finish (h : s.Consistent printer agents) (running : s.txs t = some cr)
    (before : ∀ row, cr.phase ≠ .created row) (knows : s.Knows printer agents t cr')
    (none' : cr'.phase.inserted = none) : (s.finish t cr').Consistent printer agents := by
  refine h.move rfl rfl (fun p => mem_finish_uncommitted s t cr') (finish_allRows_sublist s t cr')
    (fun row cr₁ running₁ => ?_) knows none'
  obtain rfl := Option.some.inj (running.symm.trans running₁)
  exact before row

/-- A row without a conflict, under a fresh id, joins the table. -/
theorem Consistent.insert (h : s.Consistent printer agents) {drawn : SessionId}
    (running : s.txs t = some cr) (phase : cr.phase = .insertSession)
    (waited : ∀ p ∈ s.uncommitted, p.1 ≠ t → conflicts printer cr.metadata p.2 = false)
    (unique : ∀ row ∈ s.rows, conflicts printer cr.metadata row = false)
    (fresh : ∀ row ∈ s.allRows, row.id ≠ drawn) :
    ((s.insert t (cr.row drawn)).goto t (cr.at (.commit (cr.row drawn)))).Consistent printer
      agents := by
  have known := h.knows t cr running
  have noRows := h.no_rows running fun row => by rw [phase]; rintro ⟨⟩
  have noConflict : ∀ row ∈ s.allRows, conflicts printer cr.metadata row = false := by
    intro row mem
    rcases List.mem_append.mp mem with old | new
    · exact unique row old
    · obtain ⟨p, mem', rfl⟩ := List.mem_map.mp new
      exact waited p mem' (noRows p mem')
  have allRows : ((s.insert t (cr.row drawn)).goto t
      (cr.at (.commit (cr.row drawn)))).allRows = s.allRows ++ [cr.row drawn] := by
    simp [Registry.allRows]
  constructor
  · rw [allRows, List.map_append]
    refine List.nodup_append.mpr ⟨h.ids, by simp, ?_⟩
    rintro _ taken _ new rfl
    obtain ⟨row, mem, same⟩ := List.mem_map.mp taken
    exact fresh row mem (same.trans (by simpa using new))
  · rw [allRows, List.filterMap_append]
    refine List.nodup_append.mpr ⟨h.requests, ?_, ?_⟩
    · cases text : (cr.row drawn).metadata.requestText printer <;> simp [text]
    · rintro id taken _ new rfl
      obtain ⟨row, mem, same⟩ := List.mem_filterMap.mp taken
      obtain ⟨row', mem', same'⟩ := List.mem_filterMap.mp new
      rw [List.mem_singleton.mp mem'] at same'
      have clash : conflicts printer cr.metadata row = true := by
        have same' : cr.metadata.requestText printer = some id := same'
        simp [conflicts, same, same']
      rw [noConflict row mem] at clash
      cases clash
  · intro p mem
    rcases List.mem_append.mp mem with old | new
    · obtain ⟨cr', running', phase'⟩ := h.mine p old
      exact ⟨cr', by simp [noRows p old, running'], phase'⟩
    · obtain rfl := List.mem_singleton.mp new
      exact ⟨cr.at (.commit (cr.row drawn)), by simp, rfl⟩
  · intro t' cr' running'
    by_cases same : t' = t
    · subst same
      obtain rfl : cr.at (.commit (cr.row drawn)) = cr' := by simpa using running'
      refine ⟨by rintro e ⟨⟩, fun _ => ?_, List.mem_append_right _ (by simp), rfl⟩
      obtain ⟨merged, indexed, agent⟩ := known.proper (by rw [phase]; rintro e ⟨⟩)
      exact ⟨merged, indexed, agent⟩
    · exact (h.knows t' cr' (by simpa [same] using running')).frame (List.Subset.refl _)
        fun row mem => List.mem_append_left _ mem
  · have inserted : ∀ {t' cr' row'}, t' ≠ t → s.txs t' = some cr' → cr'.phase.inserted = some row' →
        row'.id ≠ drawn := fun _ running' inserted' =>
      fresh _ ((h.knows _ _ running').inserted_mem inserted')
    intro t₁ t₂ cr₁ cr₂ row₁ row₂ other running₁ running₂ inserted₁ inserted₂
    by_cases same₁ : t₁ = t
    · subst same₁
      obtain rfl : cr.at (.commit (cr.row drawn)) = cr₁ := by simpa using running₁
      obtain rfl : cr.row drawn = row₁ := Option.some.inj inserted₁
      exact (inserted other.symm (by simpa [other.symm] using running₂) inserted₂).symm
    · by_cases same₂ : t₂ = t
      · subst same₂
        obtain rfl : cr.at (.commit (cr.row drawn)) = cr₂ := by simpa using running₂
        obtain rfl : cr.row drawn = row₂ := Option.some.inj inserted₂
        exact inserted same₁ (by simpa [same₁] using running₁) inserted₁
      · exact h.apart t₁ t₂ cr₁ cr₂ row₁ row₂ other (by simpa [same₁] using running₁)
          (by simpa [same₂] using running₂) inserted₁ inserted₂
  · intro row mem
    obtain ⟨t', cr', running', created⟩ := h.owned row mem
    have other : t' ≠ t := by
      rintro rfl
      obtain rfl := Option.some.inj (running.symm.trans running')
      rw [phase] at created
      cases created
    exact ⟨t', cr', by simp [other, running'], created⟩

/-- The commit of an inserted row. -/
theorem Consistent.commit (h : s.Consistent printer agents) (running : s.txs t = some cr)
    (phase : cr.phase = .commit row) :
    ((s.withRow row).finish t (cr.at (.created row))).Consistent printer agents := by
  have known := h.knows t cr running
  have holds := known.holds
  rw [phase] at holds
  obtain ⟨mine, formed⟩ := holds
  have distinct : s.uncommitted.Nodup := by
    have ids := (List.nodup_append.mp (List.map_append ▸ h.ids)).2.1
    exact .of_map _ (.of_map _ ids)
  have only : ∀ p ∈ s.uncommitted, p.1 = t → p = (t, row) := by
    rintro ⟨t', row'⟩ mem rfl
    obtain ⟨cr', running', phase'⟩ := h.mine _ mem
    obtain rfl := Option.some.inj (running.symm.trans running')
    rw [phase] at phase'
    cases phase'
    rfl
  have split : s.uncommitted.Perm ((t, row) :: s.uncommitted.filter (·.1 ≠ t)) := by
    have distinct' : ((t, row) :: s.uncommitted.filter (·.1 ≠ t)).Nodup :=
      List.nodup_cons.mpr ⟨by simp, distinct.filter _⟩
    refine (List.perm_ext_iff_of_nodup distinct distinct').mpr fun p => ?_
    rw [List.mem_cons, List.mem_filter]
    constructor
    · intro mem
      by_cases same : p.1 = t
      · exact .inl (only p mem same)
      · exact .inr ⟨mem, by simpa using same⟩
    · rintro (rfl | ⟨mem, _⟩)
      · exact mine
      · exact mem
  have allRows : ((s.withRow row).finish t (cr.at (.created row))).allRows.Perm s.allRows := by
    have shifted := (split.map Prod.snd).symm.append_left s.rows
    simpa [Registry.allRows, Registry.finish] using shifted
  constructor
  · exact (allRows.map Session.id).nodup_iff.mpr h.ids
  · exact (allRows.filterMap _).nodup_iff.mpr h.requests
  · intro p mem
    obtain ⟨mem, other⟩ := (mem_finish_uncommitted _ t _).mp mem
    obtain ⟨cr', running', phase'⟩ := h.mine p mem
    exact ⟨cr', by simp [other, running'], phase'⟩
  · intro t' cr' running'
    by_cases same : t' = t
    · subst same
      obtain rfl : cr.at (.created row) = cr' := by simpa using running'
      refine ⟨by rintro e ⟨⟩, fun _ => ?_, List.mem_append_right _ (by simp), formed⟩
      obtain ⟨merged, indexed, agent⟩ := known.proper (by rw [phase]; rintro e ⟨⟩)
      exact ⟨merged, indexed, agent⟩
    · refine (h.knows t' cr' (by simpa [same] using running')).frame
        (List.subset_append_left _ _) fun row mem => ?_
      exact (mem_finish_uncommitted _ t _).mpr ⟨mem, same⟩
  · have stays : ∀ {t' cr' row'},
        ((s.withRow row).finish t (cr.at (.created row))).txs t' = some cr' →
        cr'.phase.inserted = some row' →
        ∃ cr'', s.txs t' = some cr'' ∧ cr''.phase.inserted = some row' := by
      intro t' cr' row' running' inserted'
      by_cases same : t' = t
      · subst same
        obtain rfl : cr.at (.created row) = cr' := by simpa using running'
        exact ⟨cr, running, by rw [phase]; exact inserted'⟩
      · exact ⟨cr', by simpa [same] using running', inserted'⟩
    intro t₁ t₂ cr₁ cr₂ row₁ row₂ other running₁ running₂ inserted₁ inserted₂
    obtain ⟨cr₁, running₁, inserted₁⟩ := stays running₁ inserted₁
    obtain ⟨cr₂, running₂, inserted₂⟩ := stays running₂ inserted₂
    exact h.apart t₁ t₂ cr₁ cr₂ row₁ row₂ other running₁ running₂ inserted₁ inserted₂
  · intro row' mem
    rcases List.mem_append.mp mem with old | new
    · obtain ⟨t', cr', running', created⟩ := h.owned row' old
      have other : t' ≠ t := by
        rintro rfl
        obtain rfl := Option.some.inj (running.symm.trans running')
        rw [phase] at created
        cases created
      exact ⟨t', cr', by simp [other, running'], created⟩
    · rw [List.mem_singleton.mp new]
      exact ⟨t, cr.at (.created row), by simp, rfl⟩

/-- A look-up by request id finds a committed row that has it. -/
theorem finds_of_lookup {id : String} (tagged : cr.metadata.requestId = some id)
    (stored : s.findSessionByRequestId printer id = some row) : s.Finds printer cr row where
  committed := List.mem_of_find?_eq_some stored
  tagged := by simp [tagged]
  same := by
    rw [tagged]
    simpa using List.find?_some stored

theorem Finds.lookup (h : s.Finds printer cr row) :
    ∃ row', cr.metadata.requestId.bind (s.findSessionByRequestId printer) = some row' ∧
      s.Finds printer cr row' := by
  obtain ⟨id, tagged⟩ := Option.ne_none_iff_exists'.mp h.tagged
  have same := h.same
  rw [tagged] at same
  have some' : (s.findSessionByRequestId printer id).isSome = true := by
    rw [findSessionByRequestId, List.find?_isSome]
    exact ⟨row, h.committed, decide_eq_true same⟩
  obtain ⟨row', stored⟩ := Option.isSome_iff_exists.mp some'
  exact ⟨row', by rw [tagged]; exact stored, finds_of_lookup tagged stored⟩

/-- A conflict is with a committed row that has the call's request id. -/
theorem finds_of_conflict (proper : cr.Proper printer agents) (mem : row ∈ s.rows)
    (clash : conflicts printer cr.metadata row = true) : s.Finds printer cr row := by
  simp only [conflicts, Bool.decide_and, Bool.and_eq_true, decide_eq_true_eq] at clash
  obtain ⟨some', same⟩ := clash
  rw [proper.indexed] at some' same
  exact ⟨mem, Option.isSome_iff_ne_none.mp some', same⟩

theorem Consistent.statement (h : s.Consistent printer agents) (running : s.txs t = some cr)
    (moved : CreateStatement printer agents s t cr cr.phase s') : s'.Consistent printer agents := by
  have known := h.knows t cr running
  have holds := known.holds
  have self : ∀ {cr'}, s.txs t = some cr' → cr' = cr := fun running' =>
    (Option.some.inj (running.symm.trans running')).symm
  generalize phase : cr.phase = at' at moved
  rw [phase] at holds
  have proper : (∀ e, at' ≠ .raised e) → cr.Proper printer agents := phase ▸ known.proper
  have knows : ∀ {next}, (∀ e, at' ≠ .raised e) → (∀ e, next ≠ .raised e) →
      s.Holds printer t (cr.at next) next → s.Knows printer agents t (cr.at next) := by
    intro next ok ok' holds
    obtain ⟨merged, indexed, agent⟩ := proper ok
    exact ⟨fun e raised => absurd raised (ok' e), fun _ => ⟨merged, indexed, agent⟩, holds⟩
  have before : at'.inserted = none → ∀ cr', s.txs t = some cr' → cr'.phase.inserted = none := by
    intro none' cr' running'
    rw [self running', phase, none']
  cases moved with
  | found tagged stored =>
      refine h.goto (before rfl) (knows (by rintro e ⟨⟩) (by rintro e ⟨⟩) ?_) rfl
      exact finds_of_lookup tagged stored
  | missing => exact h.goto (before rfl) (knows (by rintro e ⟨⟩) (by rintro e ⟨⟩) trivial) rfl
  | returnedExisting =>
      exact h.finish running (by rw [phase]; rintro row ⟨⟩)
        (knows (by rintro e ⟨⟩) (by rintro e ⟨⟩) ⟨holds.committed, holds.tagged, holds.same⟩) rfl
  | failed tagged clash =>
      refine h.goto (before rfl) (knows (by rintro e ⟨⟩) (by rintro e ⟨⟩) ?_) rfl
      rcases clash with ⟨row, mem, clash⟩ | orphan
      · obtain ⟨committed, tagged, same⟩ := finds_of_conflict (proper (by rintro e ⟨⟩)) mem clash
        exact ⟨row, committed, tagged, same⟩
      · rw [(proper (by rintro e ⟨⟩)).agent] at orphan
        cases orphan
  | refused untagged clash =>
      rcases clash with ⟨row, mem, clash⟩ | orphan
      · exact absurd untagged (finds_of_conflict (proper (by rintro e ⟨⟩)) mem clash).tagged
      · rw [(proper (by rintro e ⟨⟩)).agent] at orphan
        cases orphan
  | inserted waited unique fresh => exact h.insert running phase waited unique fresh
  | committed => exact h.commit running phase
  | rolledBack =>
      obtain ⟨row, finds⟩ := holds
      exact h.finish running (by rw [phase]; rintro row ⟨⟩)
        (knows (by rintro e ⟨⟩) (by rintro e ⟨⟩)
          ⟨row, finds.committed, finds.tagged, finds.same⟩) rfl
  | retried =>
      obtain ⟨row, finds⟩ := holds
      obtain ⟨row', stored, finds⟩ := finds.lookup
      rw [stored]
      exact h.goto (before rfl)
        (knows (by rintro e ⟨⟩) (by rintro e ⟨⟩) ⟨finds.committed, finds.tagged, finds.same⟩) rfl
  | returnedRetried =>
      exact h.finish running (by rw [phase]; rintro row ⟨⟩)
        (knows (by rintro e ⟨⟩) (by rintro e ⟨⟩) ⟨holds.committed, holds.tagged, holds.same⟩) rfl
  | lost => exact absurd holds id

/-- One label keeps the table consistent. -/
theorem Consistent.step {a : RegistryAction} (h : s.Consistent printer agents)
    (proper : a.proper agents = true) (stepped : s.step printer agents a = some s') :
    s'.Consistent printer agents := by
  cases step_cases stepped with
  | disagreeing fresh disagree =>
      refine h.goto (fun cr running => ?_) ⟨?_, ?_, trivial⟩ rfl
      · rw [fresh] at running
        cases running
      · rintro e ⟨⟩
        exact disagree
      · intro ok
        exact absurd rfl (ok _)
  | @begun t call metadata phase fresh merged first =>
      obtain ⟨agent, textual⟩ := Bool.and_eq_true_iff.mp proper
      have known : Creation.Proper printer agents ⟨call, metadata, phase⟩ :=
        ⟨merged, CreateCall.requestText_merged textual merged, agent⟩
      rcases first with rfl | rfl
      · refine h.goto (fun cr running => ?_) ⟨by rintro e ⟨⟩, fun _ => known, trivial⟩ rfl
        rw [fresh] at running
        cases running
      · refine h.goto (fun cr running => ?_) ⟨by rintro e ⟨⟩, fun _ => known, trivial⟩ rfl
        rw [fresh] at running
        cases running
  | statement running moved => exact h.statement running moved
  | @aborted t cr running open' =>
      refine h.finish running (fun row phase => ?_) ⟨by rintro e ⟨⟩, fun _ => ?_, trivial⟩ rfl
      · rw [phase] at open'
        cases open'
      · have ok : ∀ e, cr.phase ≠ .raised e := fun e phase => by
          rw [phase] at open'
          cases open'
        obtain ⟨merged, indexed, agent⟩ := (h.knows t cr running).proper ok
        exact ⟨merged, indexed, agent⟩

theorem consistent_of_reachable
    (reachable : (system printer agents).ReachableIf (fun _ a => a.proper agents = true) s) :
    s.Consistent printer agents :=
  reachable.invariant (fun _ initial => initial ▸ consistent_empty)
    fun _ _ _ holds proper stepped => holds.step proper stepped

/-- The rows by id, as the other transactions of the service read them. -/
def table (rows : List Session) : SessionId → Option Session :=
  fun sid => rows.find? (·.id = sid)

/-- To the emitters' database, the commit of a call is the appearance of a new session. -/
theorem Consistent.commit_createSession (h : s.Consistent printer agents)
    (running : s.txs t = some cr) (phase : cr.phase = .commit row) {hash : SessionId → Nat}
    (store : Store) (same : store.db.sessions = table s.rows) :
    store.step hash (.createSession row.id row.agentId row.metadata) =
      some (store.withDb { store.db with sessions := table (s.rows ++ [row]) }) := by
  have holds := (h.knows t cr running).holds
  rw [phase] at holds
  obtain ⟨mine, formed⟩ := holds
  have fresh : ∀ r ∈ s.rows, r.id ≠ row.id := by
    intro r mem taken
    have apart := (List.nodup_append.mp (List.map_append ▸ h.ids)).2.2
    exact apart _ (List.mem_map_of_mem mem) _
      (List.mem_map_of_mem (List.mem_map_of_mem mine)) taken
  have absent : table s.rows row.id = none := by
    rw [table, List.find?_eq_none]
    intro r mem
    simpa using fresh r mem
  have inserted : Function.update (table s.rows) row.id
      (some ⟨row.id, row.agentId, .active, 0, row.metadata⟩) = table (s.rows ++ [row]) := by
    funext sid
    rw [table, List.find?_append]
    by_cases here : sid = row.id
    · subst here
      have absent : s.rows.find? (·.id = row.id) = none := absent
      rw [Function.update_self, absent, formed]
      simp [Creation.row]
    · have other : ¬ row.id = sid := fun h => here h.symm
      simp [Function.update_of_ne here, table, other]
  simp only [Store.step, same, absent, Database.insertSession, inserted]

section Progress

/-- Every statement of a call brings it nearer to its end. -/
theorem rank_of_statement {phase : CreatePhase}
    (moved : CreateStatement printer agents s t cr phase s') : ∃ cr', s'.txs t = some cr' ∧
      cr'.call = cr.call ∧ cr'.phase ≠ .aborted ∧
      cr'.phase.rank + s'.uncommitted.length < phase.rank + s.uncommitted.length := by
  have less := List.length_filter_le (fun p : TxId × Session => p.1 ≠ t) s.uncommitted
  cases moved with
  | found tagged stored =>
      exact ⟨_, Function.update_self .., rfl, by rintro ⟨⟩, by simp [CreatePhase.rank]⟩
  | missing => exact ⟨_, Function.update_self .., rfl, by rintro ⟨⟩, by simp [CreatePhase.rank]⟩
  | returnedExisting =>
      refine ⟨_, Function.update_self .., rfl, by rintro ⟨⟩, ?_⟩
      simp only [at_phase, CreatePhase.rank, finish]
      omega
  | failed tagged clash =>
      exact ⟨_, Function.update_self .., rfl, by rintro ⟨⟩, by simp [CreatePhase.rank]⟩
  | refused untagged clash =>
      refine ⟨_, Function.update_self .., rfl, by rintro ⟨⟩, ?_⟩
      simp only [at_phase, CreatePhase.rank, finish]
      omega
  | inserted waited unique fresh =>
      refine ⟨_, Function.update_self .., rfl, by rintro ⟨⟩, ?_⟩
      simp only [at_phase, CreatePhase.rank, goto_uncommitted, insert_uncommitted,
        List.length_append, List.length_singleton]
      omega
  | committed =>
      refine ⟨_, Function.update_self .., rfl, by rintro ⟨⟩, ?_⟩
      simp only [at_phase, CreatePhase.rank, finish, withRow_uncommitted]
      omega
  | rolledBack =>
      refine ⟨_, Function.update_self .., rfl, by rintro ⟨⟩, ?_⟩
      simp only [at_phase, CreatePhase.rank, finish]
      omega
  | retried => exact ⟨_, Function.update_self .., rfl, by rintro ⟨⟩, by simp [CreatePhase.rank]⟩
  | returnedRetried =>
      refine ⟨_, Function.update_self .., rfl, by rintro ⟨⟩, ?_⟩
      simp only [at_phase, CreatePhase.rank, finish]
      omega
  | lost =>
      refine ⟨_, Function.update_self .., rfl, by rintro ⟨⟩, ?_⟩
      simp only [at_phase, CreatePhase.rank, finish]
      omega

/-- The database can always draw an id that no row has. -/
theorem exists_fresh (s : Registry) : ∃ drawn, s.allRows.any (·.id = drawn) = false := by
  obtain ⟨drawn, fresh⟩ := Infinite.exists_notMem_finset (s.allRows.map Session.id).toFinset
  refine ⟨drawn, ?_⟩
  rw [← Bool.not_eq_true, List.any_eq_true]
  rintro ⟨row, mem, same⟩
  exact fresh (List.mem_toFinset.mpr (of_decide_eq_true same ▸ List.mem_map_of_mem mem))

/-- A call can take its next statement, or waits for another one's insert. -/
theorem enabled_or_waits (printer : Printer) (agents : AgentId → Bool)
    (running : s.txs t = some cr) (open' : cr.phase.ended = false) :
    (∃ drawn s', s.step printer agents (.statement t drawn) = some s') ∨
      ∃ p ∈ s.uncommitted, p.1 ≠ t := by
  obtain ⟨drawn, fresh⟩ := exists_fresh s
  have steps : ∀ s', s.createStatement printer agents t cr drawn cr.phase = some s' →
      ∃ drawn s', s.step printer agents (.statement t drawn) = some s' := by
    intro s' moved
    exact ⟨drawn, s', by rw [step_statement running, moved]⟩
  cases phase : cr.phase with
  | insertSession =>
      by_cases waits : s.uncommitted.any
          (fun p => p.1 ≠ t ∧ conflicts printer cr.metadata p.2) = true
      · obtain ⟨p, mem, blocks⟩ := List.any_eq_true.mp waits
        exact .inr ⟨p, mem, (of_decide_eq_true blocks).1⟩
      · refine .inl ?_
        rw [phase] at steps
        simp only [createStatement, if_neg waits, fresh] at steps
        by_cases clash : s.rows.any (conflicts printer cr.metadata) = true ∨
            agents cr.call.agentId = false
        · cases tagged : cr.metadata.requestId with
          | none => exact steps _ (by simp only [if_pos clash, tagged]; rfl)
          | some id => exact steps _ (by simp only [if_pos clash, tagged]; rfl)
        · exact steps _ (by simp only [if_neg clash]; rfl)
  | findSessionByRequestId =>
      rw [phase] at steps
      cases stored : cr.metadata.requestId.bind (s.findSessionByRequestId printer) with
      | none => exact .inl (steps _ (by simp only [createStatement, stored]; rfl))
      | some row => exact .inl (steps _ (by simp only [createStatement, stored]; rfl))
  | retried row =>
      rw [phase] at steps
      cases row with
      | none => exact .inl (steps _ rfl)
      | some row => exact .inl (steps _ rfl)
  | existing row => exact .inl (steps _ (by rw [phase]; rfl))
  | commit row => exact .inl (steps _ (by rw [phase]; rfl))
  | rollback => exact .inl (steps _ (by rw [phase]; rfl))
  | retry => exact .inl (steps _ (by rw [phase]; rfl))
  | created row => rw [phase] at open'; cases open'
  | returned row => rw [phase] at open'; cases open'
  | raised e => rw [phase] at open'; cases open'
  | aborted => rw [phase] at open'; cases open'

/-- The call of `t` has returned a session. -/
def Returned (call : CreateCall) (t : TxId) (s : Registry) : Prop :=
  ∃ cr row, s.txs t = some cr ∧ cr.call = call ∧ cr.phase.result = some row

/-- A call that got past the merge can return: no two calls wait for each other. -/
theorem Consistent.returns (h : s.Consistent printer agents) (running : s.txs t = some cr)
    (goesOn : cr.phase ≠ .aborted) (unrefused : ∀ e, cr.phase ≠ .raised e) :
    (system printer agents).Leads (Returned cr.call t) s := by
  generalize bound : cr.phase.rank + s.uncommitted.length = n
  induction n using Nat.strong_induction_on generalizing s cr with
  | _ n ih =>
      subst bound
      cases open' : cr.phase.ended with
      | true =>
          refine .here ⟨cr, ?_⟩
          cases phase : cr.phase with
          | created row => exact ⟨row, running, rfl, rfl⟩
          | returned row => exact ⟨row, running, rfl, rfl⟩
          | raised e => exact absurd phase (unrefused e)
          | aborted => exact absurd phase goesOn
          | _ => rw [phase] at open'; cases open'
      | false =>
          rcases enabled_or_waits printer agents running open' with
            ⟨drawn, s', stepped⟩ | ⟨p, mem, other⟩
          · have h' := h.step (a := .statement t drawn) rfl stepped
            refine Transition.System.Leads.step (a := .statement t drawn) (t := s') stepped ?_
            cases step_cases stepped with
            | statement running' moved =>
                obtain rfl := Option.some.inj (running.symm.trans running')
                obtain ⟨cr', running'', call, goesOn', less⟩ := rank_of_statement moved
                have merged := ((h.knows t cr running).proper unrefused).merged
                rw [← call]
                refine ih _ less h' running'' goesOn' (fun e raised => ?_) rfl
                have refused := (h'.knows t cr' running'').refused e raised
                rw [call, merged] at refused
                cases refused
          · obtain ⟨t', row⟩ := p
            obtain ⟨cr', running', phase⟩ := h.mine _ mem
            have stepped : s.step printer agents (.statement t' row.id) =
                some ((s.withRow row).finish t' (cr'.at (.created row))) := by
              rw [step_statement running', phase]
              rfl
            refine Transition.System.Leads.step (a := .statement t' row.id) stepped
              (ih _ ?_ (h.step (a := .statement t' row.id) rfl stepped)
                (by simpa [Ne.symm other] using running) goesOn unrefused rfl)
            refine Nat.add_lt_add_left ?_ _
            exact List.length_filter_lt_length_iff_exists.mpr ⟨_, mem, by simp⟩

end Progress

/-- The committed rows only grow. -/
theorem step_extends_rows {a : RegistryAction} (stepped : s.step printer agents a = some s') :
    s.rows <+: s'.rows := by
  cases step_cases stepped with
  | @statement t cr drawn s' running moved =>
      generalize cr.phase = phase at moved
      cases moved with
      | committed => exact List.prefix_append _ _
      | _ => exact List.prefix_refl _
  | _ => exact List.prefix_refl _

theorem later_extends_rows (later : (system printer agents).Later s s') : s.rows <+: s'.rows :=
  later.relates (R := fun s s' => s.rows <+: s'.rows) (fun _ => List.prefix_refl _)
    (fun _ _ _ => List.IsPrefix.trans) fun _ _ _ _ stepped => step_extends_rows stepped

/-- The session a call has returned is a committed one, with the call's request id. -/
theorem Consistent.result (h : s.Consistent printer agents) (running : s.txs t = some cr)
    (returned : cr.phase.result = some row) : row ∈ s.rows ∧
      row.metadata.requestText printer = cr.metadata.requestId ∧
      (cr.metadata.requestId = none → cr.phase.inserted = some row) := by
  have known := h.knows t cr running
  have holds := known.holds
  cases phase : cr.phase with
  | created row' =>
      rw [phase] at holds returned
      obtain rfl := Option.some.inj returned
      have indexed := (known.proper (by rw [phase]; rintro e ⟨⟩)).indexed
      refine ⟨holds.1, ?_, fun _ => rfl⟩
      rw [holds.2]
      exact indexed
  | returned row' =>
      rw [phase] at holds returned
      obtain rfl := Option.some.inj returned
      exact ⟨holds.committed, holds.same, fun none' => absurd none' holds.tagged⟩
  | _ => rw [phase] at returned; cases returned

theorem Consistent.rows_ids (h : s.Consistent printer agents) : (s.rows.map Session.id).Nodup :=
  h.ids.sublist ((List.sublist_append_left _ _).map _)

/-- A committed request id belongs to one row. -/
theorem Consistent.eq_of_request (h : s.Consistent printer agents) {row row' : Session}
    {id : String}
    (mem : row ∈ s.rows) (mem' : row' ∈ s.rows) (has : row.metadata.requestText printer = some id)
    (has' : row'.metadata.requestText printer = some id) : row = row' := by
  have requests := h.requests.sublist
    ((List.sublist_append_left s.rows (s.uncommitted.map Prod.snd)).filterMap _)
  have apart : s.rows.Pairwise fun a b => ¬ (a.metadata.requestText printer = some id ∧
      b.metadata.requestText printer = some id) :=
    (List.pairwise_filterMap.mp requests).imp fun apart both => apart id both.1 id both.2 rfl
  have symm : Std.Symm fun a b : Session => ¬ (a.metadata.requestText printer = some id ∧
      b.metadata.requestText printer = some id) := ⟨fun _ _ apart both => apart both.symm⟩
  by_contra other
  exact apart.forall mem mem' other ⟨has, has'⟩

theorem Consistent.one_row (h : s.Consistent printer agents) (id : String) :
    (s.rows.filter (·.metadata.requestText printer = some id)).length ≤ 1 := by
  cases has : s.rows.filter (·.metadata.requestText printer = some id) with
  | nil => exact Nat.zero_le 1
  | cons row rest =>
      cases rest with
      | nil => exact Nat.le_refl 1
      | cons row' rest =>
          have distinct : (row :: row' :: rest).Nodup := by
            rw [← has]
            exact (List.Nodup.of_map _ h.rows_ids).filter _
          have members : ∀ r ∈ row :: row' :: rest,
              r ∈ s.rows ∧ r.metadata.requestText printer = some id := by
            intro r mem
            rw [← has] at mem
            simpa using mem
          obtain ⟨mem, same⟩ := members row List.mem_cons_self
          obtain ⟨mem', same'⟩ := members row' (List.mem_cons_of_mem _ List.mem_cons_self)
          obtain rfl := h.eq_of_request mem mem' same same'
          exact absurd List.mem_cons_self (List.nodup_cons.mp distinct).1

/-- Two calls return one session exactly if they have the same request id. -/
theorem Consistent.same_session_iff (h : s.Consistent printer agents) {t t' : TxId}
    {cr cr' : Creation} {row row' : Session} (other : t ≠ t') (running : s.txs t = some cr)
    (running' : s.txs t' = some cr') (returned : cr.phase.result = some row)
    (returned' : cr'.phase.result = some row') :
    (cr.metadata.requestId = cr'.metadata.requestId → cr.metadata.requestId ≠ none → row = row') ∧
    (cr.metadata.requestId ≠ cr'.metadata.requestId ∨ cr.metadata.requestId = none →
      row.id ≠ row'.id) := by
  obtain ⟨mem, text, mine⟩ := h.result running returned
  obtain ⟨mem', text', mine'⟩ := h.result running' returned'
  constructor
  · intro same tagged
    obtain ⟨id, tagged⟩ := Option.ne_none_iff_exists'.mp tagged
    exact h.eq_of_request mem mem' (text.trans tagged) (text'.trans (same.symm.trans tagged))
  · intro apart same
    obtain rfl := List.inj_on_of_nodup_map h.rows_ids mem mem' same
    have untagged : cr.metadata.requestId = none ∧ cr'.metadata.requestId = none := by
      rcases apart with differ | none'
      · exact absurd (text.symm.trans text') differ
      · exact ⟨none', text'.symm.trans (text.trans none')⟩
    exact h.apart t t' cr cr' row row other running running' (mine untagged.1)
      (mine' untagged.2) rfl

/-- Whatever the interleaving, calls with one request id create one session between them.
A call raises only if its two request ids disagree, which `_merge_metadata` refuses. -/
theorem one_session_per_request
    (reachable : (system printer agents).ReachableIf (fun _ a => a.proper agents = true) s) :
    (∀ t cr, s.txs t = some cr →
      (∀ e, cr.phase = .raised e → cr.call.mergeMetadata printer = .error e) ∧
      (cr.phase ≠ .aborted → (∀ e, cr.call.mergeMetadata printer ≠ .error e) →
        (system printer agents).Leads (Returned cr.call t) s)) ∧
    (∀ t t' cr cr' row row', t ≠ t' → s.txs t = some cr → s.txs t' = some cr' →
      cr.phase.result = some row → cr'.phase.result = some row' →
      (cr.metadata.requestId = cr'.metadata.requestId → cr.metadata.requestId ≠ none → row = row') ∧
      (cr.metadata.requestId ≠ cr'.metadata.requestId ∨ cr.metadata.requestId = none →
        row.id ≠ row'.id)) ∧
    (∀ id, (s.rows.filter (·.metadata.requestText printer = some id)).length ≤ 1) ∧
    ∀ row ∈ s.rows, (∃ t cr, s.txs t = some cr ∧ cr.phase = .created row ∧
        cr.call.mergeMetadata printer = .ok row.metadata) ∧
      ∀ s', (system printer agents).Later s s' → row ∈ s'.rows := by
  have consistent := consistent_of_reachable reachable
  refine ⟨fun t cr running => ⟨(consistent.knows t cr running).refused, fun goesOn agree => ?_⟩,
    ?_, consistent.one_row, fun row mem => ⟨?_, fun s' later => ?_⟩⟩
  · refine consistent.returns running goesOn fun e raised => ?_
    exact agree e ((consistent.knows t cr running).refused e raised)
  · intro t t' cr cr' row row' other running running' returned returned'
    exact consistent.same_session_iff other running running' returned returned'
  · obtain ⟨t, cr, running, phase⟩ := consistent.owned row mem
    have known := consistent.knows t cr running
    have holds := known.holds
    rw [phase] at holds
    refine ⟨t, cr, running, phase, ?_⟩
    rw [holds.2]
    exact (known.proper (by rw [phase]; rintro e ⟨⟩)).merged
  · exact (later_extends_rows later).subset mem

section Race

/-- A printer that prints nothing. -/
def blank : Printer := ⟨fun _ => "", fun _ => ""⟩

/-- Two calls with one request id, given as the argument and in the metadata, race with a
third one that aborts after its insert, and a call without a request id. -/
def requestRace : List RegistryAction :=
  [.createSession 0 ⟨"a", none, some "r"⟩,
    .createSession 1 ⟨"a", some [("request_id", .str "r"), ("k", .int 1)], none⟩,
    .createSession 2 ⟨"a", none, some "r"⟩, .createSession 3 ⟨"a", none, none⟩,
    .statement 2 "", .statement 0 "", .statement 1 "", .statement 2 "s2", .abort 2,
    .statement 0 "s0", .statement 3 "s3", .statement 0 "", .statement 1 "s1", .statement 3 "",
    .statement 1 "", .statement 1 "", .statement 1 ""]

/-- The ids of the sessions that calls `0`, `1` and `3` have returned. -/
def returnedIds (s : Registry) : List (Option SessionId) :=
  [0, 1, 3].map fun t => ((s.txs t).bind fun cr => cr.phase.result).map Session.id

theorem one_session_per_request_race : ∃ s,
    (system blank fun _ => true).runIf (fun _ a => a.proper fun _ => true) empty requestRace =
      some s ∧ returnedIds s = [some "s0", some "s0", some "s3"] ∧
    ∀ id, (s.rows.filter (·.metadata.requestText blank = some id)).length ≤ 1 := by
  obtain ⟨s, ran, ids⟩ := Option.map_eq_some_iff.mp (show
    ((system blank fun _ => true).runIf (fun _ a => a.proper fun _ => true) empty requestRace).map
      returnedIds = some [some "s0", some "s0", some "s3"] by decide)
  have reachable := Transition.System.reaches_of_runIf ran
  exact ⟨s, ran, ids, (one_session_per_request ⟨empty, rfl, reachable⟩).2.2.1⟩

end Race

end Registry

end Tename
