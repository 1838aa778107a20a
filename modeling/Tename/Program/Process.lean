import Tename.Program.Basic
import Tename.Transition.Basic

/-!
# Processes that can be killed and restarted

A process runs one program against a state that outlives it. The
configuration holds that state and what is left of the program. The labels say
when the process starts, what the environment answers to a requested
operation, when the process ends or is killed, and when somebody else acts on
the state. Killing discards the program and nothing else.
-/

/-- A program together with the environment that performs its operations. -/
structure Process (Op : Type) (Res : Op → Type) (ε σ Ans Ext : Type) where
  main : Program Op Res ε Unit
  /-- The memory of a fresh process: what of the state a start resets. -/
  boot : σ → σ
  /-- The effect and outcome of an operation, for the given answer of the environment. -/
  perform : σ → (o : Op) → Ans → Option (σ × Except ε (Res o))
  /-- A step of somebody else on the shared state. -/
  disturb : σ → Ext → Option σ

namespace Process

variable {Op : Type} {Res : Op → Type} {ε σ Ans Ext : Type}

structure Config (Op : Type) (Res : Op → Type) (ε σ : Type) where
  state : σ
  /-- What is left to run, if the process is alive. -/
  program : Option (Program Op Res ε Unit)

inductive Action (Ans Ext : Type) where
  | start
  | respond (answer : Ans)
  | finish
  | kill
  | disturb (by' : Ext)
  deriving DecidableEq

def step (P : Process Op Res ε σ Ans Ext) (c : Config Op Res ε σ) :
    Action Ans Ext → Option (Config Op Res ε σ)
  | .start =>
      match c.program with
      | none => some ⟨P.boot c.state, some P.main⟩
      | some _ => none
  | .respond answer =>
      match c.program with
      | some (.op o k) => (P.perform c.state o answer).map fun (s, r) => ⟨s, some (k r)⟩
      | _ => none
  | .finish =>
      match c.program with
      | some (.pure _) | some (.throw _) => some ⟨c.state, none⟩
      | _ => none
  | .kill => c.program.map fun _ => ⟨c.state, none⟩
  | .disturb x => (P.disturb c.state x).map fun s => ⟨s, c.program⟩

/-- Runs begin with no process alive, in a state that meets `start`. -/
def system (P : Process Op Res ε σ Ans Ext) (start : σ → Prop) :
    Transition.System (Config Op Res ε σ) (Action Ans Ext) where
  initial c := c.program = none ∧ start c.state
  step := P.step

theorem step_start (P : Process Op Res ε σ Ans Ext) (s : σ) :
    P.step ⟨s, none⟩ .start = some ⟨P.boot s, some P.main⟩ := rfl

theorem step_respond {P : Process Op Res ε σ Ans Ext} {s s' : σ} {o : Op} {answer : Ans}
    {r : Except ε (Res o)} (k : Except ε (Res o) → Program Op Res ε Unit)
    (performed : P.perform s o answer = some (s', r)) :
    P.step ⟨s, some (.op o k)⟩ (.respond answer) = some ⟨s', some (k r)⟩ := by
  simp [step, performed]

theorem step_disturb {P : Process Op Res ε σ Ans Ext} {s s' : σ} {x : Ext}
    (program : Option (Program Op Res ε Unit)) (disturbed : P.disturb s x = some s') :
    P.step ⟨s, program⟩ (.disturb x) = some ⟨s', program⟩ := by
  simp [step, disturbed]

/-- Everything one step of a process can do. -/
theorem step_cases {P : Process Op Res ε σ Ans Ext} {c c' : Config Op Res ε σ}
    {a : Action Ans Ext} (h : P.step c a = some c') :
    (a = .start ∧ c.program = none ∧ c' = ⟨P.boot c.state, some P.main⟩) ∨
    (∃ answer o k s r, a = .respond answer ∧ c.program = some (.op o k) ∧
      P.perform c.state o answer = some (s, r) ∧ c' = ⟨s, some (k r)⟩) ∨
    ((a = .finish ∨ a = .kill) ∧ c.program ≠ none ∧ c' = ⟨c.state, none⟩) ∨
    (∃ x s, a = .disturb x ∧ P.disturb c.state x = some s ∧ c' = ⟨s, c.program⟩) := by
  obtain ⟨s, program⟩ := c
  cases a with
  | start =>
      cases program with
      | none => exact .inl ⟨rfl, rfl, by simpa [step] using h.symm⟩
      | some p => simp [step] at h
  | respond answer =>
      cases program with
      | none => simp [step] at h
      | some p =>
          cases p with
          | pure a => simp [step] at h
          | throw e => simp [step] at h
          | op o k =>
              obtain ⟨⟨s', r⟩, performed, rfl⟩ := Option.map_eq_some_iff.mp h
              exact .inr (.inl ⟨answer, o, k, s', r, rfl, rfl, performed, rfl⟩)
  | finish =>
      cases program with
      | none => simp [step] at h
      | some p =>
          cases p with
          | pure a =>
              exact .inr (.inr (.inl ⟨.inl rfl, by simp, by simpa [step] using h.symm⟩))
          | throw e =>
              exact .inr (.inr (.inl ⟨.inl rfl, by simp, by simpa [step] using h.symm⟩))
          | op o k => simp [step] at h
  | kill =>
      obtain ⟨p, alive, rfl⟩ := Option.map_eq_some_iff.mp h
      exact .inr (.inr (.inl ⟨.inr rfl, by simp_all, rfl⟩))
  | disturb x =>
      obtain ⟨s', disturbed, rfl⟩ := Option.map_eq_some_iff.mp h
      exact .inr (.inr (.inr ⟨x, s', rfl, disturbed, rfl⟩))

end Process
