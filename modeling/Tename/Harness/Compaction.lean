import Mathlib.Data.List.Induction
import Mathlib.Data.List.Nodup
import Tename.Harness.Profiles

/-!
# Compaction helpers

Compaction is append-only: a record in the log lists the sequences that leave
the active view, and `applyCompactionView` filters the events by the latest
record. `planTruncate` keeps the first user message, every compaction record
and the last `keep_last_n_events` events of the view it is given.
-/

namespace Tename

/-- Rough token estimator: 4 characters per token. -/
def charsPerToken : Nat := 4

/-- Approximate token count of events by payload character length. -/
def estimateEventTokens (events : List Event) : Nat :=
  max 1 (events.foldl (fun total e => total + e.payload.length) 0 / charsPerToken)

def isCompactionEvent (e : Event) : Bool :=
  e.type = .harnessEvent ∧ (e.payload.get? "type").bind Json.str? = some "compaction"

/-- The sequences a compaction record lists as dropped. -/
def droppedSequences (record : Event) : List Int :=
  match record.payload.getD "dropped_sequences" (.arr []) with
  | .arr xs => xs.filterMap Json.int?
  | _ => []

/-- The latest compaction record of `events`. -/
def latestCompaction (events : List Event) : Option Event :=
  events.foldl (fun latest e => if isCompactionEvent e then some e else latest) none

/-- The active view of `events` after honoring the latest compaction record. -/
def applyCompactionView (events : List Event) : List Event :=
  match latestCompaction events with
  | none => events
  | some latest => events.filter fun e => (e.sequence : Int) ∉ droppedSequences latest

/-- Plan for a single compaction pass. -/
structure CompactionDecision where
  droppedSequences : List Nat
  keptSequences : List Nat
  estimatedTokensBefore : Nat
  estimatedTokensAfter : Nat

def CompactionDecision.toPayload (d : CompactionDecision) : Payload :=
  [("type", .str "compaction"), ("strategy", .str "truncate"),
    ("dropped_sequences", .arr (d.droppedSequences.map fun n => .int n)),
    ("kept_sequences", .arr (d.keptSequences.map fun n => .int n)),
    ("estimated_tokens_before", .int d.estimatedTokensBefore),
    ("estimated_tokens_after", .int d.estimatedTokensAfter)]

/-- True when the active view reaches the profile's compaction threshold. -/
def shouldCompact (active : List Event) (profile : Profile) : Bool :=
  profile.context.resolvedCompactionThreshold ≤ estimateEventTokens active

/-- The sequence of the first user message. -/
def firstUserSequence (active : List Event) : Option Nat :=
  (active.find? (·.type = .userMessage)).map Event.sequence

/-- Whether `plan_truncate` keeps the event at index `p.2` of `active`. -/
def keepsIndex (active : List Event) (profile : Profile) (p : Event × Nat) : Bool :=
  isCompactionEvent p.1 || firstUserSequence active = some p.1.sequence ||
    active.length - profile.context.keepLastNEvents ≤ p.2

/-- The events `plan_truncate` keeps, in order. -/
def planKept (active : List Event) (profile : Profile) : List Event :=
  (active.zipIdx.filter (keepsIndex active profile)).map Prod.fst

/-- The events `plan_truncate` drops, in order. -/
def planDropped (active : List Event) (profile : Profile) : List Event :=
  (active.zipIdx.filter fun p => !keepsIndex active profile p).map Prod.fst

/-- Compute a truncate-strategy decision; `none` if there is nothing to drop. -/
def planTruncate (active : List Event) (profile : Profile) : Option CompactionDecision :=
  if active.isEmpty then none
  else if (planDropped active profile).isEmpty then none
  else some {
    droppedSequences := (planDropped active profile).map Event.sequence
    keptSequences := (planKept active profile).map Event.sequence
    estimatedTokensBefore := estimateEventTokens active
    estimatedTokensAfter := estimateEventTokens (planKept active profile) }

section View

variable {events : List Event} {e latest : Event}

theorem latestCompaction_append (events tail : List Event) :
    latestCompaction (events ++ tail) =
      (latestCompaction tail).or (latestCompaction events) := by
  induction tail using List.reverseRecOn with
  | nil => simp [latestCompaction]
  | append_singleton tail e ih =>
      simp only [latestCompaction, List.foldl_append, List.foldl_cons, List.foldl_nil] at ih ⊢
      split
      · rfl
      · exact ih

@[simp] theorem latestCompaction_nil : latestCompaction [] = none := rfl

@[simp] theorem latestCompaction_singleton :
    latestCompaction [e] = if isCompactionEvent e then some e else none := rfl

theorem latestCompaction_mem (h : latestCompaction events = some latest) :
    latest ∈ events ∧ isCompactionEvent latest = true := by
  induction events using List.reverseRecOn with
  | nil => cases h
  | append_singleton events e ih =>
      rw [latestCompaction_append, latestCompaction_singleton] at h
      by_cases record : isCompactionEvent e = true
      · obtain rfl : e = latest := by simpa [record] using h
        exact ⟨by simp, record⟩
      · obtain ⟨mem, record'⟩ := ih (by simpa [record] using h)
        exact ⟨by simp [mem], record'⟩

theorem latestCompaction_eq_none :
    latestCompaction events = none ↔ ∀ e ∈ events, isCompactionEvent e = false := by
  induction events using List.reverseRecOn with
  | nil => simp
  | append_singleton events e ih =>
      rw [latestCompaction_append, latestCompaction_singleton]
      by_cases record : isCompactionEvent e = true
      · simp [record]
      · simp [record, ih, or_imp, forall_and]

/-- The sequences hidden from the active view. -/
def hiddenSequences (events : List Event) : List Int :=
  ((latestCompaction events).map droppedSequences).getD []

theorem applyCompactionView_eq_filter (events : List Event) :
    applyCompactionView events =
      events.filter fun e => (e.sequence : Int) ∉ hiddenSequences events := by
  unfold applyCompactionView hiddenSequences
  cases latestCompaction events <;> simp

theorem mem_applyCompactionView : e ∈ applyCompactionView events ↔
    e ∈ events ∧ (e.sequence : Int) ∉ hiddenSequences events := by
  simp [applyCompactionView_eq_filter]

theorem applyCompactionView_sublist : (applyCompactionView events).Sublist events := by
  rw [applyCompactionView_eq_filter]
  exact List.filter_sublist

theorem hiddenSequences_append (events : List Event) (e : Event) :
    hiddenSequences (events ++ [e]) =
      if isCompactionEvent e then droppedSequences e else hiddenSequences events := by
  unfold hiddenSequences
  rw [latestCompaction_append, latestCompaction_singleton]
  by_cases record : isCompactionEvent e = true <;> simp [record]

/-- A later event that is not a record joins the view. -/
theorem applyCompactionView_append (events : List Event) {e : Event}
    (other : isCompactionEvent e = false)
    (later : ∀ n ∈ hiddenSequences events, n ≠ (e.sequence : Int)) :
    applyCompactionView (events ++ [e]) = applyCompactionView events ++ [e] := by
  have shown : (e.sequence : Int) ∉ hiddenSequences events := fun hidden => later _ hidden rfl
  simp only [applyCompactionView_eq_filter, hiddenSequences_append, other, List.filter_append,
    Bool.false_eq_true, if_false]
  simp [shown]

/-- A new record decides the view alone. -/
theorem applyCompactionView_append_record (events : List Event) {record : Event}
    (isRecord : isCompactionEvent record = true)
    (shown : (record.sequence : Int) ∉ droppedSequences record) :
    applyCompactionView (events ++ [record]) =
      (events.filter fun e => (e.sequence : Int) ∉ droppedSequences record) ++ [record] := by
  simp only [applyCompactionView_eq_filter, hiddenSequences_append, isRecord, if_true,
    List.filter_append]
  simp [shown]

theorem applyCompactionView_of_no_record (h : latestCompaction events = none) :
    applyCompactionView events = events := by
  simp [applyCompactionView, h]

end View

section Plan

variable {active : List Event} {profile : Profile} {e : Event}

@[simp] theorem droppedSequences_toPayload (d : CompactionDecision) (id : EventId)
    (sid : SessionId) (sequence : Nat) (type : EventType) :
    Tename.droppedSequences ⟨id, sid, sequence, type, d.toPayload⟩ =
      d.droppedSequences.map fun n : Nat => (n : Int) := by
  have listed : Payload.getD d.toPayload "dropped_sequences" (.arr []) =
      .arr (d.droppedSequences.map fun n => .int n) := rfl
  simp only [Tename.droppedSequences, listed, List.filterMap_map]
  induction d.droppedSequences with
  | nil => rfl
  | cons n ns ih => simpa [Json.int?] using ih

@[simp] theorem isCompactionEvent_toPayload (d : CompactionDecision) (id : EventId)
    (sid : SessionId) (sequence : Nat) :
    isCompactionEvent ⟨id, sid, sequence, .harnessEvent, d.toPayload⟩ = true := by
  rfl

theorem planTruncate_eq_some {d : CompactionDecision} (h : planTruncate active profile = some d) :
    d.droppedSequences = (planDropped active profile).map Event.sequence ∧
      planDropped active profile ≠ [] := by
  unfold planTruncate at h
  split at h
  · cases h
  · split at h
    · cases h
    · rename_i some
      obtain rfl := Option.some.inj h
      exact ⟨rfl, by simpa using some⟩

theorem mem_planDropped : e ∈ planDropped active profile ↔
    ∃ i, (e, i) ∈ active.zipIdx ∧ keepsIndex active profile (e, i) = false := by
  simp [planDropped]

theorem mem_planKept : e ∈ planKept active profile ↔
    ∃ i, (e, i) ∈ active.zipIdx ∧ keepsIndex active profile (e, i) = true := by
  simp [planKept]

theorem planKept_subset (h : e ∈ planKept active profile) : e ∈ active := by
  obtain ⟨i, mem, _⟩ := mem_planKept.mp h
  exact List.fst_mem_of_mem_zipIdx mem

/-- Compaction records are kept. -/
theorem not_record_of_dropped (h : e ∈ planDropped active profile) :
    isCompactionEvent e = false := by
  obtain ⟨i, _, dropped⟩ := mem_planDropped.mp h
  simp only [keepsIndex, Bool.or_eq_false_iff] at dropped
  exact dropped.1.1

/-- What is not dropped is kept, in order. -/
theorem planKept_eq_filter (distinct : (active.map Event.sequence).Nodup) :
    planKept active profile = active.filter fun e =>
      e.sequence ∉ (planDropped active profile).map Event.sequence := by
  have split : ∀ p ∈ active.zipIdx, keepsIndex active profile p =
      decide (p.1.sequence ∉ (planDropped active profile).map Event.sequence) := by
    rintro ⟨e, i⟩ mem
    have only : ∀ e' j, (e', j) ∈ active.zipIdx → e'.sequence = e.sequence → e' = e ∧ j = i := by
      intro e' j mem' same
      obtain ⟨lt, here⟩ := List.mem_zipIdx' mem
      obtain ⟨lt', here'⟩ := List.mem_zipIdx' mem'
      obtain rfl : j = i := by
        have bound : i < (active.map Event.sequence).length := by simpa using lt
        have bound' : j < (active.map Event.sequence).length := by simpa using lt'
        have same' : (active.map Event.sequence)[j] = (active.map Event.sequence)[i] := by
          simpa [← here, ← here'] using same
        exact (List.Nodup.getElem_inj_iff distinct).mp same'
      exact ⟨here'.trans here.symm, rfl⟩
    by_cases keeps : keepsIndex active profile (e, i) = true
    · rw [keeps, eq_comm, decide_eq_true_iff]
      intro dropped
      obtain ⟨e', mem', same⟩ := List.mem_map.mp dropped
      obtain ⟨j, at', drops⟩ := mem_planDropped.mp mem'
      obtain ⟨rfl, rfl⟩ := only e' j at' same
      rw [keeps] at drops
      cases drops
    · rw [Bool.not_eq_true] at keeps
      rw [keeps, eq_comm, decide_eq_false_iff_not, not_not]
      exact List.mem_map_of_mem (mem_planDropped.mpr ⟨i, mem, keeps⟩)
  calc planKept active profile
      = (active.zipIdx.filter fun p =>
          decide (p.1.sequence ∉ (planDropped active profile).map Event.sequence)).map
            Prod.fst := by
        rw [planKept, List.filter_congr split]
    _ = (active.zipIdx.map Prod.fst).filter fun e =>
          e.sequence ∉ (planDropped active profile).map Event.sequence := by
        rw [List.filter_map]
        rfl
    _ = _ := by rw [List.zipIdx_map_fst]

theorem planDropped_subset (h : e ∈ planDropped active profile) : e ∈ active := by
  obtain ⟨i, mem, _⟩ := mem_planDropped.mp h
  exact List.fst_mem_of_mem_zipIdx mem

end Plan

end Tename
