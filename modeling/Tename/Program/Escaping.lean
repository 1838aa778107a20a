import Tename.Program.Evaluation

/-!
# Exceptions that no handler takes

An exception escapes a program if it leaves the program whenever an operation raises it, past
every handler and through every `finally`. A cleanup keeps to this if it raises nothing else.
-/

namespace Process

variable {Op : Type} {Res : Op → Type} {ε σ Ans Ext : Type} {α β : Type}

/-- Where an operation raises the exception, the program does. -/
def Escapes (P : Process Op Res ε σ Ans Ext) (e : ε) (p : Program Op Res ε α) : Prop :=
  ∀ s h out s', P.Evaluates p s h out s' → (∃ x ∈ h, x.outcome = .error e) → out = .error e

/-- The program raises nothing but the exception. -/
def RaisesOnly (P : Process Op Res ε σ Ans Ext) (e : ε) (p : Program Op Res ε α) : Prop :=
  ∀ s h e' s', P.Evaluates p s h (.error e') s' → e' = e

variable {P : Process Op Res ε σ Ans Ext} {e : ε}

namespace Escapes

/-- A program without operations. -/
theorem idle {p : Program Op Res ε α}
    (silent : ∀ s h out s', P.Evaluates p s h out s' → h = []) : P.Escapes e p := by
  rintro s h out s' ran ⟨x, mem, -⟩
  rw [silent s h out s' ran] at mem
  cases mem

theorem pure (a : α) : P.Escapes e (.pure a : Program Op Res ε α) :=
  idle fun _ _ _ _ ran => (evaluates_pure.mp ran).1

theorem throw (e' : ε) : P.Escapes e (.throw e' : Program Op Res ε α) :=
  idle fun _ _ _ _ ran => (evaluates_throw.mp ran).1

theorem settle (r : Except ε α) : P.Escapes e (Program.settle r) :=
  idle fun _ _ _ _ ran => (evaluates_settle.mp ran).1

theorem perform (o : Op) : P.Escapes e (Program.perform o) := by
  rintro s h out s' ran ⟨x, mem, raised⟩
  obtain ⟨s₁, answer, -, -, rfl⟩ := evaluates_perform.mp ran
  obtain rfl := List.mem_singleton.mp mem
  exact raised

theorem bind {p : Program Op Res ε β} {f : β → Program Op Res ε α} (first : P.Escapes e p)
    (second : ∀ b, P.Escapes e (f b)) : P.Escapes e (p.bind f) := by
  rintro s h out s' ran ⟨x, mem, raised⟩
  rcases evaluates_bind.mp ran with ⟨e', rfl, failed⟩ | ⟨b, h₁, h₂, s₁, rfl, ran₁, ran₂⟩
  · cases first _ _ _ _ failed ⟨x, mem, raised⟩
    rfl
  · rcases List.mem_append.mp mem with before | after
    · cases first _ _ _ _ ran₁ ⟨x, before, raised⟩
    · exact second b _ _ _ _ ran₂ ⟨x, after, raised⟩

/-- A handler that raises the exception again. -/
theorem handle {p : Program Op Res ε β} {f : Except ε β → Program Op Res ε α}
    (first : P.Escapes e p) (again : f (.error e) = .throw e)
    (second : ∀ r, P.Escapes e (f r)) : P.Escapes e (p.attempt.bind f) := by
  rintro s h out s' ran ⟨x, mem, raised⟩
  rcases evaluates_bind.mp ran with ⟨e', -, failed⟩ | ⟨r, h₁, h₂, s₁, rfl, tried, ran₂⟩
  · obtain ⟨r, impossible, -⟩ := evaluates_attempt.mp failed
    cases impossible
  · obtain ⟨_, ⟨⟩, ran₁⟩ := evaluates_attempt.mp tried
    rcases List.mem_append.mp mem with before | after
    · obtain rfl := first _ _ _ _ ran₁ ⟨x, before, raised⟩
      rw [again] at ran₂
      exact (evaluates_throw.mp ran₂).2.1
    · exact second r _ _ _ _ ran₂ ⟨x, after, raised⟩

theorem tryFinally {body : Program Op Res ε α} {cleanup : Program Op Res ε Unit}
    (inner : P.Escapes e body) (outer : P.Escapes e cleanup) (only : P.RaisesOnly e cleanup) :
    P.Escapes e (body.tryFinally cleanup) := by
  rintro s h out s' ran ⟨x, mem, raised⟩
  obtain ⟨r, c, h₁, h₂, s₁, rfl, ran₁, ran₂, rfl⟩ := evaluates_tryFinally.mp ran
  rcases List.mem_append.mp mem with before | after
  · obtain rfl := inner _ _ _ _ ran₁ ⟨x, before, raised⟩
    cases c with
    | ok done => rfl
    | error e' =>
        obtain rfl := only _ _ _ _ ran₂
        rfl
  · obtain rfl := outer _ _ _ _ ran₂ ⟨x, after, raised⟩
    rfl

theorem forEach {body : β → Program Op Res ε Unit} (each : ∀ x, P.Escapes e (body x))
    (xs : List β) : P.Escapes e (Program.forEach xs body) := by
  induction xs with
  | nil => exact .pure ()
  | cons x xs ih => exact .bind (each x) fun _ => ih

end Escapes

namespace RaisesOnly

theorem pure (a : α) : P.RaisesOnly e (.pure a : Program Op Res ε α) := by
  intro s h e' s' ran
  cases ran

theorem throw : P.RaisesOnly e (.throw e : Program Op Res ε α) := by
  intro s h e' s' ran
  cases ran
  rfl

theorem bind {p : Program Op Res ε β} {f : β → Program Op Res ε α} (first : P.RaisesOnly e p)
    (second : ∀ b, P.RaisesOnly e (f b)) : P.RaisesOnly e (p.bind f) := by
  intro s h e' s' ran
  rcases evaluates_bind.mp ran with ⟨_, ⟨⟩, failed⟩ | ⟨b, h₁, h₂, s₁, -, -, ran₂⟩
  · exact first _ _ _ _ failed
  · exact second b _ _ _ _ ran₂

theorem attempt (p : Program Op Res ε α) : P.RaisesOnly e p.attempt := by
  intro s h e' s' ran
  obtain ⟨r, impossible, -⟩ := evaluates_attempt.mp ran
  cases impossible

theorem forEach {body : β → Program Op Res ε Unit} (each : ∀ x, P.RaisesOnly e (body x))
    (xs : List β) : P.RaisesOnly e (Program.forEach xs body) := by
  induction xs with
  | nil => exact .pure ()
  | cons x xs ih => exact .bind (each x) fun _ => ih

end RaisesOnly

/-- From a program and a state, the operations lead to another: what is left of the program
is evaluated as its end. -/
def Underway (P : Process Op Res ε σ Ans Ext) (p : Program Op Res ε α) (s : σ)
    (h : List (Performed Op Res ε Ans)) (q : Program Op Res ε α) (t : σ) : Prop :=
  ∀ h' out s', P.Evaluates q t h' out s' → P.Evaluates p s (h ++ h') out s'

theorem Underway.refl (p : Program Op Res ε α) (s : σ) : P.Underway p s [] p s :=
  fun _ _ _ ran => ran

/-- One more operation. -/
theorem Underway.respond {p : Program Op Res ε α} {s t t' : σ} {o : Op}
    {k : Except ε (Res o) → Program Op Res ε α} {h : List (Performed Op Res ε Ans)}
    {answer : Ans} {r : Except ε (Res o)} (far : P.Underway p s h (.op o k) t)
    (performed : P.perform t o answer = some (t', r)) :
    P.Underway p s (h ++ [⟨o, answer, r⟩]) (k r) t' := by
  intro h' out s' ran
  rw [List.append_assoc, List.singleton_append]
  exact far _ _ _ (.op .refl performed ran)

end Process
