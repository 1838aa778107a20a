import Mathlib.Data.List.Basic

/-!
# Machines with a slot for each key

A transducer takes one event after the other, answers each and goes on, or stops on an
exception. Where the events are of keys and the state has a slot for each of them, the
events of one key are answered as though there were no others, however they interleave.
-/

/-- What a transducer does in a state with an event. -/
abbrev Transducer (σ E O ε : Type) := σ → E → Except ε (σ × O)

section Lanes

variable {A ι : Type} [DecidableEq ι] {key : A → Option ι} {i : ι} {x : A} {xs : List A}

/-- What is of a key, in order. -/
def lane (key : A → Option ι) (i : ι) (xs : List A) : List A :=
  xs.filter fun x => key x = some i

theorem lane_cons_here (here : key x = some i) : lane key i (x :: xs) = x :: lane key i xs :=
  List.filter_cons_of_pos (decide_eq_true here)

theorem lane_cons_away (away : key x ≠ some i) : lane key i (x :: xs) = lane key i xs :=
  List.filter_cons_of_neg fun here => away (of_decide_eq_true here)

end Lanes

namespace Transducer

variable {σ E O ε : Type} (r : Transducer σ E O ε)

/-- The events of a run, each with its answer, and the state they leave. -/
def run : σ → List E → Except ε (σ × List (E × O))
  | s, [] => .ok (s, [])
  | s, e :: events =>
      match r s e with
      | .error x => .error x
      | .ok (s, answer) => (run s events).map fun ended => (ended.1, (e, answer) :: ended.2)

variable {r} {s s' : σ} {events : List E} {answers : List (E × O)}

@[simp] theorem run_nil : r.run s [] = .ok (s, []) := rfl

/-- One event, and those that follow. -/
theorem run_cons {e : E} {answer : O} (first : r s e = .ok (s', answer)) :
    r.run s (e :: events) =
      (r.run s' events).map fun ended => (ended.1, (e, answer) :: ended.2) := by
  rw [run, first]

/-- A run that goes through has gone through its first event. -/
theorem run_cons_ok {e : E} {ended : σ × List (E × O)}
    (ran : r.run s (e :: events) = .ok ended) :
    ∃ s₁ answer rest, r s e = .ok (s₁, answer) ∧ r.run s₁ events = .ok (ended.1, rest) ∧
      ended.2 = (e, answer) :: rest := by
  rw [run] at ran
  cases first : r s e with
  | error x =>
      rw [first] at ran
      cases ran
  | ok answered =>
      obtain ⟨s₁, answer⟩ := answered
      simp only [first] at ran
      cases later : r.run s₁ events with
      | error x =>
          rw [later] at ran
          cases ran
      | ok rest =>
          rw [later] at ran
          cases ran
          exact ⟨s₁, answer, rest.2, rfl, later, rfl⟩

/-- Every event is answered once, in order. -/
theorem run_events (ran : r.run s events = .ok (s', answers)) : answers.map Prod.fst = events := by
  induction events generalizing s answers with
  | nil =>
      cases ran
      rfl
  | cons e events ih =>
      obtain ⟨s₁, answer, rest, -, later, rfl⟩ := run_cons_ok ran
      rw [List.map_cons, ih later]

/-- The answers up to the end, or up to the exception that stops the transducer. -/
def progress (r : Transducer σ E O ε) : σ → List E → List (E × O) × Except ε σ
  | s, [] => ([], .ok s)
  | s, e :: events =>
      match r s e with
      | .error x => ([], .error x)
      | .ok (s, answer) => ((e, answer) :: (progress r s events).1, (progress r s events).2)

theorem progress_of_run (ran : r.run s events = .ok (s', answers)) :
    r.progress s events = (answers, .ok s') := by
  induction events generalizing s answers with
  | nil =>
      cases ran
      rfl
  | cons e events ih =>
      obtain ⟨s₁, answer, rest, first, later, rfl⟩ := run_cons_ok ran
      simp only [progress, first, ih later]

/-- What holds of every answer holds of those that are given. -/
theorem progress_answers {P : E → O → Prop}
    (step : ∀ s e s' answer, r s e = .ok (s', answer) → P e answer) :
    ∀ answered ∈ (r.progress s events).1, P answered.1 answered.2 := by
  induction events generalizing s with
  | nil =>
      intro answered mem
      cases mem
  | cons e events ih =>
      intro answered mem
      cases first : r s e with
      | error x =>
          simp only [progress, first] at mem
          cases mem
      | ok next =>
          obtain ⟨s₁, answer⟩ := next
          simp only [progress, first] at mem
          cases mem with
          | head => exact step s e s₁ answer first
          | tail _ mem => exact ih answered mem

theorem run_answers {P : E → O → Prop}
    (step : ∀ s e s' answer, r s e = .ok (s', answer) → P e answer)
    (ran : r.run s events = .ok (s', answers)) :
    ∀ answered ∈ answers, P answered.1 answered.2 := by
  intro answered mem
  have same : (r.progress s events).1 = answers := congrArg Prod.fst (progress_of_run ran)
  rw [← same] at mem
  exact progress_answers step answered mem

/-- A run of two parts. -/
theorem run_append {first second : List E} {answers : List (E × O)}
    (ran : r.run s first = .ok (s', answers)) :
    r.run s (first ++ second) =
      (r.run s' second).map fun ended => (ended.1, answers ++ ended.2) := by
  induction first generalizing s answers with
  | nil =>
      cases ran
      exact (congrFun Except.map_id (r.run s' second)).symm
  | cons e first ih =>
      obtain ⟨s₁, answer, rest, read, later, rfl⟩ := run_cons_ok ran
      rw [List.cons_append, run_cons read, ih later]
      cases r.run s' second with
      | error x => rfl
      | ok ended => rfl

/-- A run of two parts goes through where both do. -/
theorem run_append_ok {first second : List E} {ended : σ × List (E × O)}
    (ran : r.run s (first ++ second) = .ok ended) :
    ∃ s₁ before after, r.run s first = .ok (s₁, before) ∧
      r.run s₁ second = .ok (ended.1, after) ∧ ended.2 = before ++ after := by
  induction first generalizing s ended with
  | nil => exact ⟨s, [], ended.2, rfl, ran, rfl⟩
  | cons e first ih =>
      obtain ⟨s₁, answer, rest, read, later, answered⟩ := run_cons_ok ran
      obtain ⟨s₂, before, after, ranFirst, ranSecond, rfl⟩ := ih later
      refine ⟨s₂, (e, answer) :: before, after, ?_, ranSecond, answered⟩
      rw [run_cons read, ranFirst]
      rfl

section Slots

variable {ι τ : Type} [DecidableEq ι] {key : E → Option ι} {slot : σ → ι → τ}
  {own : ι → Transducer τ E O ε} {i : ι}

/-- The events of a key read and write its slot alone, and events of no key none. -/
structure Slotted (r : Transducer σ E O ε) (key : E → Option ι) (slot : σ → ι → τ)
    (own : ι → Transducer τ E O ε) : Prop where
  here : ∀ s e i, key e = some i →
    own i (slot s i) e = (r s e).map fun next => (slot next.1 i, next.2)
  elsewhere : ∀ s e s' answer i, r s e = .ok (s', answer) → key e ≠ some i →
    slot s' i = slot s i
  keyless : ∀ s e, key e = none → ∃ next, r s e = .ok next

/-- The events of a key are answered as though there were no others. -/
theorem Slotted.run_slot (slotted : Slotted r key slot own)
    (ran : r.run s events = .ok (s', answers)) :
    (own i).run (slot s i) (lane key i events) =
      .ok (slot s' i, lane (key ·.1) i answers) := by
  induction events generalizing s answers with
  | nil =>
      cases ran
      rfl
  | cons e events ih =>
      obtain ⟨s₁, answer, rest, read, later, rfl⟩ := run_cons_ok ran
      by_cases here : key e = some i
      · have first : own i (slot s i) e = .ok (slot s₁ i, answer) := by
          rw [slotted.here s e i here, read]
          rfl
        have answered : lane (fun x : E × O => key x.1) i ((e, answer) :: rest) =
            (e, answer) :: lane (key ·.1) i rest := lane_cons_here here
        rw [lane_cons_here here, run_cons first, ih later, answered]
        rfl
      · have answered : lane (fun x : E × O => key x.1) i ((e, answer) :: rest) =
            lane (key ·.1) i rest := lane_cons_away here
        rw [lane_cons_away here, answered, ← slotted.elsewhere s e s₁ answer i read here]
        exact ih later

/-- Where the events of every key go through alone, all go through. -/
theorem Slotted.run_total (slotted : Slotted r key slot own)
    (alone : ∀ i, ∃ ended, (own i).run (slot s i) (lane key i events) = .ok ended) :
    ∃ ended, r.run s events = .ok ended := by
  induction events generalizing s with
  | nil => exact ⟨_, rfl⟩
  | cons e events ih =>
      have passes : ∃ next, r s e = .ok next := by
        cases of : key e with
        | none => exact slotted.keyless s e of
        | some i =>
            obtain ⟨ended, ran⟩ := alone i
            rw [lane_cons_here of] at ran
            obtain ⟨s₁, answer, rest, first, -⟩ := run_cons_ok ran
            rw [slotted.here s e i of] at first
            cases read : r s e with
            | ok next => exact ⟨next, rfl⟩
            | error x =>
                rw [read] at first
                cases first
      obtain ⟨⟨s₁, answer⟩, read⟩ := passes
      have later : ∀ i, ∃ ended,
          (own i).run (slot s₁ i) (lane key i events) = .ok ended := by
        intro i
        obtain ⟨ended, ran⟩ := alone i
        by_cases here : key e = some i
        · rw [lane_cons_here here] at ran
          obtain ⟨t, answered, rest, first, after, -⟩ := run_cons_ok ran
          rw [slotted.here s e i here, read] at first
          cases first
          exact ⟨_, after⟩
        · rw [lane_cons_away here] at ran
          rw [slotted.elsewhere s e s₁ answer i read here]
          exact ⟨ended, ran⟩
      obtain ⟨ended, ran⟩ := ih later
      refine ⟨(ended.1, (e, answer) :: ended.2), ?_⟩
      rw [run_cons read, ran]
      rfl

end Slots

end Transducer
