import Tename.Program.Basic

/-!
# Programs against a deterministic environment

Where the environment is a function of its state, a program has one run from each
state. A family of environments is then a parameter, and what holds of the run for
every environment holds whatever the operations answer.
-/

namespace Program

variable {Op : Type} {Res : Op → Type} {ε σ α β : Type}

/-- What an environment does for an operation: its outcome, and the state it leaves. -/
abbrev Handler (Op : Type) (Res : Op → Type) (ε σ : Type) :=
  (o : Op) → σ → Except ε (Res o) × σ

/-- The run of a program from a state. -/
def run (handle : Handler Op Res ε σ) : Program Op Res ε α → σ → Except ε α × σ
  | pure a, s => (.ok a, s)
  | throw e, s => (.error e, s)
  | op o k, s => (k (handle o s).1).run handle (handle o s).2

variable {handle : Handler Op Res ε σ}

@[simp] theorem run_pure (a : α) (s : σ) :
    (pure a : Program Op Res ε α).run handle s = (.ok a, s) := rfl

@[simp] theorem run_throw (e : ε) (s : σ) :
    (throw e : Program Op Res ε α).run handle s = (.error e, s) := rfl

@[simp] theorem run_settle (r : Except ε α) (s : σ) :
    (settle r : Program Op Res ε α).run handle s = (r, s) := by
  cases r <;> rfl

@[simp] theorem run_perform (o : Op) (s : σ) :
    (perform o : Program Op Res ε (Res o)).run handle s = handle o s := by
  rw [perform, run]
  cases outcome : (handle o s).1 <;> simp [← outcome]

/-- Sequencing: the second part runs where the first one returns. -/
theorem run_bind (p : Program Op Res ε α) (f : α → Program Op Res ε β) (s : σ) :
    (p.bind f).run handle s =
      match p.run handle s with
      | (.ok a, s) => (f a).run handle s
      | (.error e, s) => (.error e, s) := by
  induction p generalizing s with
  | pure a => rfl
  | throw e => rfl
  | op o k ih => exact ih _ _

theorem run_bind_ok {p : Program Op Res ε α} {f : α → Program Op Res ε β} {s s' : σ} {a : α}
    (first : p.run handle s = (.ok a, s')) : (p.bind f).run handle s = (f a).run handle s' := by
  rw [run_bind, first]

theorem run_bind_error {p : Program Op Res ε α} {f : α → Program Op Res ε β} {s s' : σ} {e : ε}
    (first : p.run handle s = (.error e, s')) : (p.bind f).run handle s = (.error e, s') := by
  rw [run_bind, first]

/-- A sequence returns where both parts do. -/
theorem run_bind_ok_iff {p : Program Op Res ε α} {f : α → Program Op Res ε β} {s s' : σ} {b : β} :
    (p.bind f).run handle s = (.ok b, s') ↔
      ∃ a s₁, p.run handle s = (.ok a, s₁) ∧ (f a).run handle s₁ = (.ok b, s') := by
  rw [run_bind]
  constructor
  · intro returned
    cases first : p.run handle s with
    | mk outcome s₁ =>
        rw [first] at returned
        cases outcome with
        | error e => cases returned
        | ok a => exact ⟨a, s₁, rfl, returned⟩
  · rintro ⟨a, s₁, first, second⟩
    rw [first]
    exact second

/-- `attempt` turns the outcome into a value. -/
theorem run_attempt (p : Program Op Res ε α) (s : σ) :
    p.attempt.run handle s = (.ok (p.run handle s).1, (p.run handle s).2) := by
  induction p generalizing s with
  | pure a => rfl
  | throw e => rfl
  | op o k ih => exact ih _ _

/-- The operations of a run, in order. -/
def trace (handle : Handler Op Res ε σ) : Program Op Res ε α → σ → List Op
  | pure _, _ => []
  | throw _, _ => []
  | op o k, s => o :: (k (handle o s).1).trace handle (handle o s).2

/-- The first operations of a program, for what they do. -/
def firstOps : Nat → Program Op Res ε α → Program Op Res ε Unit
  | 0, _ => pure ()
  | _, pure _ => pure ()
  | _, throw _ => pure ()
  | n + 1, op o k => op o fun r => (k r).firstOps n

/-- A program that performs no operations but those of `A`. -/
def Within (A : Op → Prop) : Program Op Res ε α → Prop
  | pure _ => True
  | throw _ => True
  | op o k => A o ∧ ∀ r, (k r).Within A

/-- The first operations raise nothing: whatever they answer, the program is merely left. -/
theorem run_firstOps (n : Nat) (p : Program Op Res ε α) (s : σ) :
    ∃ s', (p.firstOps n).run handle s = (.ok (), s') := by
  induction n generalizing p s with
  | zero => exact ⟨s, by cases p <;> rfl⟩
  | succ n ih =>
      cases p with
      | pure a => exact ⟨s, rfl⟩
      | throw e => exact ⟨s, rfl⟩
      | op o k => exact ih (k (handle o s).1) (handle o s).2

variable {A B : Op → Prop}

theorem within_perform {o : Op} (allowed : A o) :
    (perform o : Program Op Res ε (Res o)).Within A := by
  refine ⟨allowed, fun r => ?_⟩
  cases r with
  | ok a => exact trivial
  | error e => exact trivial

theorem Within.bind {p : Program Op Res ε α} {f : α → Program Op Res ε β} (first : p.Within A)
    (second : ∀ a, (f a).Within A) : (p.bind f).Within A := by
  induction p with
  | pure a => exact second a
  | throw e => exact trivial
  | op o k ih => exact ⟨first.1, fun r => ih r (first.2 r)⟩

theorem Within.attempt {p : Program Op Res ε α} (h : p.Within A) : p.attempt.Within A := by
  induction p with
  | pure a => exact trivial
  | throw e => exact trivial
  | op o k ih => exact ⟨h.1, fun r => ih r (h.2 r)⟩

theorem within_settle (r : Except ε α) : (settle r : Program Op Res ε α).Within A := by
  cases r <;> exact trivial

theorem Within.tryFinally {p : Program Op Res ε α} {cleanup : Program Op Res ε Unit}
    (first : p.Within A) (second : cleanup.Within A) : (p.tryFinally cleanup).Within A :=
  first.attempt.bind fun r => second.bind fun _ => within_settle r

theorem Within.forEach {xs : List β} {body : β → Program Op Res ε Unit}
    (each : ∀ x, (body x).Within A) : (Program.forEach xs body).Within A := by
  induction xs with
  | nil => exact trivial
  | cons x xs ih => exact (each x).bind fun _ => ih

theorem Within.mono {p : Program Op Res ε α} (h : p.Within A) (weaken : ∀ o, A o → B o) :
    p.Within B := by
  induction p with
  | pure a => exact trivial
  | throw e => exact trivial
  | op o k ih => exact ⟨weaken o h.1, fun r => ih r (h.2 r)⟩

/-- The frame rule: what all operations keep but those of `B`, a run without those keeps. -/
theorem Within.keeps {P : σ → Prop} {p : Program Op Res ε α} {s : σ} (h : p.Within A)
    (without : ∀ o ∈ p.trace handle s, ¬ B o)
    (kept : ∀ o s, A o → ¬ B o → P s → P (handle o s).2) (start : P s) :
    P (p.run handle s).2 := by
  induction p generalizing s with
  | pure a => exact start
  | throw e => exact start
  | op o k ih =>
      have first := kept o s h.1 (without o List.mem_cons_self) start
      exact ih _ (h.2 _) (fun o' mem => without o' (List.mem_cons_of_mem o mem)) first

/-- A run with its operations, its outcome and the state it leaves. -/
structure Performs (handle : Handler Op Res ε σ) (p : Program Op Res ε α) (s : σ) (ops : List Op)
    (r : Except ε α) (s' : σ) : Prop where
  operations : p.trace handle s = ops
  outcome : p.run handle s = (r, s')

namespace Performs

variable {p : Program Op Res ε α} {f : α → Program Op Res ε β} {s s₁ s₂ : σ} {ops ops' : List Op}
  {a : α} {e : ε} {r : Except ε α} {r' : Except ε β}

theorem pure : Performs handle (.pure a) s [] (.ok a) s := ⟨rfl, rfl⟩

theorem throw : Performs handle (.throw e : Program Op Res ε α) s [] (.error e) s := ⟨rfl, rfl⟩

theorem settle : Performs handle (settle r) s [] r s := by
  cases r <;> exact ⟨rfl, rfl⟩

theorem perform {o : Op} {answer : Except ε (Res o)} (answers : handle o s = (answer, s₁)) :
    Performs handle (perform o) s [o] answer s₁ := by
  refine ⟨?_, by rw [run_perform, answers]⟩
  rw [Program.perform, trace, answers]
  cases answer <;> rfl

theorem bind (first : Performs handle p s ops (.ok a) s₁)
    (second : Performs handle (f a) s₁ ops' r' s₂) :
    Performs handle (p.bind f) s (ops ++ ops') r' s₂ := by
  obtain ⟨operations, outcome⟩ := first
  refine ⟨?_, by rw [run_bind_ok outcome, second.outcome]⟩
  induction p generalizing s ops with
  | pure b =>
      cases outcome
      rw [← operations]
      exact second.operations
  | throw e => cases outcome
  | op o k ih => rw [← operations, op_bind, trace, trace, ih _ rfl outcome, List.cons_append]

/-- A second part without operations. -/
theorem bind_silent (first : Performs handle p s ops (.ok a) s₁)
    (second : Performs handle (f a) s₁ [] r' s₂) : Performs handle (p.bind f) s ops r' s₂ := by
  rw [← List.append_nil ops]
  exact first.bind second

theorem attempt (first : Performs handle p s ops r s₁) :
    Performs handle p.attempt s ops (.ok r) s₁ := by
  obtain ⟨operations, outcome⟩ := first
  refine ⟨?_, by rw [run_attempt, outcome]⟩
  clear outcome
  induction p generalizing s ops with
  | pure b => exact operations
  | throw e => exact operations
  | op o k ih => rw [← operations, Program.attempt, trace, trace, ih _ rfl]

/-- The cleanup runs on every way out. -/
theorem tryFinally {cleanup : Program Op Res ε Unit} (first : Performs handle p s ops r s₁)
    (cleaned : Performs handle cleanup s₁ ops' (.ok ()) s₂) :
    Performs handle (p.tryFinally cleanup) s (ops ++ ops') r s₂ := by
  have passes : Performs handle (cleanup.bind fun _ => Program.settle r) s₁ (ops' ++ []) r s₂ :=
    cleaned.bind settle
  rw [List.append_nil] at passes
  exact first.attempt.bind passes

/-- A loop over operations that go through. -/
theorem forEach {xs : List β} {o : β → Op} {body : β → Program Op Res ε Unit}
    (each : ∀ x s, Performs handle (body x) s [o x] (.ok ()) s) :
    Performs handle (Program.forEach xs body) s (xs.map o) (.ok ()) s := by
  induction xs with
  | nil => exact pure
  | cons x xs ih => exact (each x s).bind ih

end Performs

/-- `P` holds before the program, between any two of its operations and after the last. -/
def Throughout (handle : Handler Op Res ε σ) (P : σ → Prop) : Program Op Res ε α → σ → Prop
  | pure _, s => P s
  | throw _, s => P s
  | op o k, s => P s ∧ (k (handle o s).1).Throughout handle P (handle o s).2

namespace Throughout

variable {P : σ → Prop} {p : Program Op Res ε α} {f : α → Program Op Res ε β} {s s₁ : σ}
  {a : α} {e : ε} {r : Except ε α} {o : Op}

/-- Wherever the process dies, `P` holds of what it leaves. -/
theorem iff_firstOps :
    p.Throughout handle P s ↔ ∀ n, P ((p.firstOps n).run handle s).2 := by
  induction p generalizing s with
  | pure a =>
      constructor
      · intro h n
        cases n <;> exact h
      · exact fun h => h 0
  | throw e =>
      constructor
      · intro h n
        cases n <;> exact h
      · exact fun h => h 0
  | op o k ih =>
      constructor
      · rintro ⟨here, later⟩ n
        cases n with
        | zero => exact here
        | succ n => exact (ih _).mp later n
      · intro h
        exact ⟨h 0, (ih _).mpr fun n => h (n + 1)⟩

theorem start (h : p.Throughout handle P s) : P s := by
  cases p with
  | pure a => exact h
  | throw e => exact h
  | op o k => exact h.1

theorem finish (h : p.Throughout handle P s) : P (p.run handle s).2 := by
  induction p generalizing s with
  | pure a => exact h
  | throw e => exact h
  | op o k ih => exact ih _ h.2

theorem settle (here : P s) : (settle r : Program Op Res ε α).Throughout handle P s := by
  cases r <;> exact here

theorem perform (before : P s) (after : P (handle o s).2) :
    (perform o : Program Op Res ε (Res o)).Throughout handle P s := by
  refine ⟨before, ?_⟩
  cases (handle o s).1 <;> exact after

theorem bind (first : p.Throughout handle P s)
    (second : ∀ a s₁, p.run handle s = (.ok a, s₁) → (f a).Throughout handle P s₁) :
    (p.bind f).Throughout handle P s := by
  induction p generalizing s with
  | pure a => exact second a s rfl
  | throw e => exact first
  | op o k ih => exact ⟨first.1, ih _ first.2 second⟩

theorem attempt (h : p.Throughout handle P s) : p.attempt.Throughout handle P s := by
  induction p generalizing s with
  | pure a => exact h
  | throw e => exact h
  | op o k ih => exact ⟨h.1, ih _ h.2⟩

/-- What the operations of `A` keep holds throughout a program with no others. -/
theorem of_within (within : p.Within A) (kept : ∀ o s, A o → P s → P (handle o s).2)
    (here : P s) : p.Throughout handle P s := by
  induction p generalizing s with
  | pure a => exact here
  | throw e => exact here
  | op o k ih => exact ⟨here, ih _ (within.2 _) (kept o s within.1 here)⟩

end Throughout

end Program
